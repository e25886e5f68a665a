import NodeSerialport.Native.Reactor
/-!
# What one step of the reactor can do

Every transition of the reactor, once, with what it does to the commands, the read window and the bytes in its hands.

* `Pc.calm`, `Pc.ended`, `Pc.signals` — where the reactor holds nothing, has returned, still has signals to send;
* `Fits` — what holds wherever the reactor stands;
* `Moves` — the transitions;
* `stepReactor_moves` — the reactor makes no other, and keeps `Fits`;
* `CallMoves` — the steps of a call of the handle.
-/

namespace NodeSerialport.Native

open Parsers (Buffer)
open Binding (NativeCall NativeEvent)

/-- The operations that are neither reads nor writes. -/
def Command.control (c : Command) : Bool :=
  match c.operation with
  | .read _ | .readCredit .. | .write _ => false
  | _ => true

/-- The completion of an ordered command. -/
structure IsCompletion (event : NativeEvent) : Prop where
  kind : event.kind = .ok ∨ event.kind = .error
  data : event.data = none

/-- The answer to an explicit read. -/
structure IsReply (event : NativeEvent) : Prop where
  kind : event.kind = .read ∨ event.kind = .error ∧ event.data = none

namespace Pc

/-- Neither bytes nor an event are in the hands of the reactor. -/
def calm : Pc → Bool
  | .opening | .opened | .top | .commands | .execute | .draining | .select | .done _ | .stopped _ | .released _
  | .reported | .closed => true
  | _ => false

/-- `run` drops `Completion`, or has. -/
def ended : Pc → Bool
  | .done _ | .stopped _ | .released _ | .reported | .closed => true
  | _ => false

/-- The stop flag is set. -/
def halted : Pc → Bool
  | .stopped _ | .released _ | .reported | .closed => true
  | _ => false

/-- How many of the open and the close event are still to be sent, at most. -/
def signals : Pc → ℕ
  | .opening | .opened => 2
  | .reported | .closed => 0
  | _ => 1

end Pc

/-- What holds of the variables where the reactor stands. -/
def Reactor.PcFits (r : Reactor) : Prop :=
  match r.pc with
  | .execute | .draining => ∃ command rest, r.commands = command :: rest ∧ command.control = true
  | .complete event =>
    (∃ command rest, r.commands = command :: rest ∧ event.id = command.id) ∧ r.written = 0 ∧ IsCompletion event
  | .notify event => IsCompletion event
  | .reply event => IsReply event
  | .filled length _ | .single length | .first length => 0 < length ∧ length ≤ r.readBuffer.length
  | .burst _ first batch | .publish _ first batch => first = none ∨ batch = []
  | _ => True

/-- How many bytes the write at the front has, if there is one. -/
def frontLength : List Command → ℕ
  | ⟨_, .write data⟩ :: _ => data.length
  | _ => 0

theorem frontLength_append (commands rest : List Command) : frontLength commands ≤ frontLength (commands ++ rest) := by
  cases commands with
  | nil => exact Nat.zero_le _
  | cons front commands =>
    obtain ⟨id, operation⟩ := front
    cases operation with
    | write data => exact le_refl data.length
    | _ => exact Nat.zero_le _

/-- **What holds wherever the reactor stands.** -/
structure Fits (n : NativePort) : Prop where
  ordered : ∀ command ∈ n.reactor.commands, command.ordered = true
  exclusive : n.reactor.streaming = true → n.reactor.read = none
  uncredited : n.reactor.pc.ended = false → n.reactor.streaming = false → n.reactor.window.bytes = 0
  written : n.reactor.written ≤ frontLength n.reactor.commands
  receiving : n.receiving = false → n.reactor.pc.ended = true
  halted : n.reactor.pc.halted = true → n.stop = true
  pc : n.reactor.PcFits

/-- The callback queue takes one more event. -/
def NativePort.Room (n : NativePort) : Prop := n.callbacks.length < callbackQueueSize ∧ n.teardown = false

instance (n : NativePort) : Decidable n.Room := inferInstanceAs (Decidable (_ ∧ _))

section

variable {n : NativePort}

theorem Fits.complete (h : Fits n) {event : NativeEvent} (hpc : n.reactor.pc = .complete event) :
    (∃ command rest, n.reactor.commands = command :: rest ∧ event.id = command.id) ∧ n.reactor.written = 0 ∧
      IsCompletion event := by
  have hfits := h.pc
  rwa [Reactor.PcFits, hpc] at hfits

theorem Fits.notify (h : Fits n) {event : NativeEvent} (hpc : n.reactor.pc = .notify event) : IsCompletion event := by
  have hfits := h.pc
  rwa [Reactor.PcFits, hpc] at hfits

theorem Fits.reply (h : Fits n) {event : NativeEvent} (hpc : n.reactor.pc = .reply event) : IsReply event := by
  have hfits := h.pc
  rwa [Reactor.PcFits, hpc] at hfits

theorem Fits.reading (h : Fits n) {length : ℕ} (hpc : (∃ full, n.reactor.pc = .filled length full) ∨
    n.reactor.pc = .single length ∨ n.reactor.pc = .first length) :
    0 < length ∧ length ≤ n.reactor.readBuffer.length := by
  have hfits := h.pc
  unfold Reactor.PcFits at hfits
  rcases hpc with ⟨full, hpc⟩ | hpc | hpc <;> rwa [hpc] at hfits

theorem Fits.burst (h : Fits n) {left : ℕ} {first : Option Buffer} {batch : List Buffer}
    (hpc : n.reactor.pc = .burst left first batch) : first = none ∨ batch = [] := by
  have hfits := h.pc
  rwa [Reactor.PcFits, hpc] at hfits

theorem Fits.publish (h : Fits n) {collected : Except IoError Unit} {first : Option Buffer} {batch : List Buffer}
    (hpc : n.reactor.pc = .publish collected first batch) : first = none ∨ batch = [] := by
  have hfits := h.pc
  rwa [Reactor.PcFits, hpc] at hfits

end

/-- The commands, the credit and the queues are the same. -/
structure Kept (n n' : NativePort) : Prop where
  commands : n'.reactor.commands = n.reactor.commands
  written : n'.reactor.written = n.reactor.written
  read : n'.reactor.read = n.reactor.read
  streaming : n'.reactor.streaming = n.reactor.streaming
  window : n'.reactor.window = n.reactor.window
  channel : n'.channel = n.channel
  callbacks : n'.callbacks = n.callbacks
  pendingOps : n'.pendingOps = n.pendingOps
  teardown : n'.teardown = n.teardown
  call : n'.call = n.call
  stop : n.stop = true → n'.stop = true
  receiving : n'.receiving = true → n.receiving = true
  ended : n.reactor.pc.ended = true → n'.reactor.pc.ended = true
  signals : n'.reactor.pc.signals ≤ n.reactor.pc.signals

/-- The window after a read of `data`. -/
def ReadWindow.charged (w : ReadWindow) (data : Buffer) (size : ℕ) : ReadWindow :=
  { bytes := w.bytes - data.length, slots := w.slots - 1, size := size }

/-- **The transitions of the reactor.** -/
inductive Moves (n : NativePort) : NativePort → List Output → Prop
  | calm {n' : NativePort} (h : Kept n n') (before : n.reactor.pc.calm = true) (after : n'.reactor.pc.calm = true) :
      Moves n n' []
  | refused {n' : NativePort} {event : CallbackEvent} (h : Kept n n') (after : n'.reactor.pc.calm = true)
      (full : ¬n.Room) : Moves n n' [.refused event]
  | signalled {event : NativeEvent} {pc : Pc}
      (hsignal : n.reactor.pc = .opened ∧ pc = .top ∧ event.kind = .opened ∨
        (∃ result, n.reactor.pc = .released result) ∧ pc = .reported ∧ event.kind = .closed)
      (hdata : event.data = none) :
      Moves n ((n.push (.event event)).goto pc) [.handed (.event event)]
  | executed {command : Command} {rest : List Command} {event : NativeEvent} (before : n.reactor.pc.calm = true)
      (hpc : n.reactor.pc.ended = false) (hcommands : n.reactor.commands = command :: rest)
      (hcontrol : command.control = true) : Moves n (n.goto (.complete event)) [.executed command]
  | written {id : ℕ} {data : Buffer} {rest : List Command} {event : NativeEvent} (hpc : n.reactor.pc = .commands)
      (hcommands : n.reactor.commands = ⟨id, .write data⟩ :: rest) (hwritten : n.reactor.written = data.length) :
      Moves n { n with reactor := { n.reactor with written := 0, pc := .complete event } } []
  | popped {event : NativeEvent} (hpc : n.reactor.pc = .complete event) :
      Moves n { n with
        pendingOps := n.pendingOps - 1
        reactor := { n.reactor with commands := n.reactor.commands.tail, pc := .notify event } } []
  | replied {event : NativeEvent} {pc : Pc} (hpc : n.reactor.pc = .notify event ∨ n.reactor.pc = .reply event)
      (after : pc = .commands ∨ pc = .top) :
      Moves n ((n.push (.event event)).goto pc) [.handed (.event event)]
  | busy {command : Command} {channel : List Command} {length : ℕ} {error : IoError} (hpc : n.reactor.pc = .select)
      (hchannel : n.channel = command :: channel) (hoperation : command.operation = .read length) :
      Moves n ({ n with channel := channel }.goto (.reply (NativeEvent.error command.id error))) []
  | reading {id length : ℕ} {channel : List Command} (hpc : n.reactor.pc = .select)
      (hchannel : n.channel = ⟨id, .read length⟩ :: channel) (hread : n.reactor.read = none)
      (hstreaming : n.reactor.streaming = false) :
      Moves n { n with
        channel := channel
        reactor := { n.reactor with read := some (id, length), pc := .top } } []
  | credited {id bytes slots : ℕ} {channel : List Command} (hpc : n.reactor.pc = .select)
      (hchannel : n.channel = ⟨id, .readCredit bytes slots⟩ :: channel) (hread : n.reactor.read = none)
      (hbytes : n.reactor.window.bytes + bytes ≤ chunkSize) (hslots : n.reactor.window.slots + slots ≤ readSlots) :
      Moves n { n with
        channel := channel
        reactor := { n.reactor with
          window := { n.reactor.window with
            bytes := n.reactor.window.bytes + bytes, slots := n.reactor.window.slots + slots }
          streaming := true
          pc := .top } } []
  | overdrawn {id bytes slots : ℕ} {channel : List Command} {error : IoError} (hpc : n.reactor.pc = .select)
      (hchannel : n.channel = ⟨id, .readCredit bytes slots⟩ :: channel)
      (hinvalid : n.reactor.read ≠ none ∨ chunkSize < n.reactor.window.bytes + bytes ∨
        readSlots < n.reactor.window.slots + slots) :
      Moves n ({ n with
        channel := channel
        reactor := { n.reactor with window := { n.reactor.window with
          bytes := n.reactor.window.bytes + bytes
          slots := n.reactor.window.slots + slots } } }.finish (.error error)) []
  | enlisted {command : Command} {channel : List Command} (hpc : n.reactor.pc = .select)
      (hchannel : n.channel = command :: channel) (hordered : command.ordered = true) :
      Moves n { n with
        channel := channel
        reactor := { n.reactor with commands := n.reactor.commands ++ [command], pc := .top } } []
  | charged {data : Buffer} {size : ℕ} {full : Bool} {transfers : TransferPoller} (hpc : n.reactor.pc = .select)
      (hread : n.reactor.read = none) (hdata : data ≠ []) (hbytes : data.length ≤ n.reactor.window.bytes)
      (hslots : 0 < n.reactor.window.slots) :
      Moves n { n with reactor := { n.reactor with
        transfers := transfers
        readBuffer := n.reactor.fill data
        window := n.reactor.window.charged data size
        pc := .filled data.length full } } [.readData data]
  | answered {data : Buffer} {id length size : ℕ} {transfers : TransferPoller} (hpc : n.reactor.pc = .select)
      (hread : n.reactor.read = some (id, length)) (hdata : data ≠ []) :
      Moves n { n with reactor := { n.reactor with
        transfers := transfers
        read := none
        readBuffer := []
        window := { n.reactor.window with size := size }
        pc := .reply { NativeEvent.new id .read with data := some data } } } [.readData data]
  | wrote {id count : ℕ} {data : Buffer} {rest : List Command} {transfers : TransferPoller} (hpc : n.reactor.pc = .select)
      (hcommands : n.reactor.commands = ⟨id, .write data⟩ :: rest) (hcount : n.reactor.written + count ≤ data.length) :
      Moves n { n with reactor := { n.reactor with
        transfers := transfers
        written := n.reactor.written + count
        pc := .top } } [.wrote ((data.drop n.reactor.written).take count)]
  | chosen {length : ℕ} {full : Bool} {pc : Pc} (hpc : n.reactor.pc = .filled length full)
      (after : pc = .single length ∨ pc = .first length) : Moves n (n.goto pc) []
  | sent {length : ℕ} {pc : Pc} (hpc : n.reactor.pc = .single length ∨ n.reactor.pc = .first length)
      (after : pc = .top ∨ ∃ left, pc = .burst left none []) :
      Moves n (({ n with reactor := { n.reactor with
        readBuffer := (CallbackEvent.ofRead n.reactor.readBuffer length).2 } }.push
          (CallbackEvent.ofRead n.reactor.readBuffer length).1).goto pc)
        [.handed (CallbackEvent.ofRead n.reactor.readBuffer length).1]
  | followed {left size : ℕ} {first : Option Buffer} {batch : List Buffer} {data : Buffer}
      (hpc : n.reactor.pc = .burst left first batch) (hdata : data ≠ []) (hbytes : data.length ≤ n.reactor.window.bytes)
      (hslots : 0 < n.reactor.window.slots) :
      Moves n { n with reactor := { n.reactor with
        readBuffer := []
        window := n.reactor.window.charged data size
        pc := .burst (left - 1) (collect first batch data).1 (collect first batch data).2 } } [.readData data]
  | collected {left : ℕ} {first : Option Buffer} {batch : List Buffer} {result : Except IoError Unit} {readBuffer : Buffer}
      (hpc : n.reactor.pc = .burst left first batch) :
      Moves n { n with reactor := { n.reactor with readBuffer := readBuffer, pc := .publish result first batch } } []
  | published {result : Except IoError Unit} {first : Option Buffer} {batch : List Buffer} {event : CallbackEvent}
      {n' : NativePort} (hpc : n.reactor.pc = .publish result first batch)
      (hevent : (∃ data, first = some data ∧ event = .read data) ∨ first = none ∧ batch ≠ [] ∧ event = .readBatch batch)
      (h : Kept (n.push event) n') (after : n'.reactor.pc.calm = true) :
      Moves n n' [.handed event]
  | unpublished {result : Except IoError Unit} {n' : NativePort} (hpc : n.reactor.pc = .publish result none [])
      (h : Kept n n') (after : n'.reactor.pc.calm = true) : Moves n n' []

variable {n n' : NativePort} {out : List Output}

/-! ### Steps that keep everything -/

theorem Fits.kept (h : Fits n) (k : Kept n n') (hreceiving : n'.reactor.pc.ended = false → n'.receiving = n.receiving)
    (hhalted : n'.reactor.pc.halted = true → n'.stop = true) (hpc : n'.reactor.PcFits) : Fits n' := by
  have hended : n'.reactor.pc.ended = false → n.reactor.pc.ended = false := by
    intro hno
    by_contra hyes
    rw [k.ended (by simpa using hyes)] at hno
    cases hno
  refine ⟨by rw [k.commands]; exact h.ordered, ?_, ?_, ?_, ?_, hhalted, hpc⟩
  · rw [k.streaming, k.read]
    exact h.exclusive
  · rw [k.streaming, k.window]
    exact fun he => h.uncredited (hended he)
  · rw [k.written, k.commands]
    exact h.written
  · intro hr
    by_contra hno
    have hno' : n'.reactor.pc.ended = false := by simpa using hno
    rw [hreceiving hno'] at hr
    rw [h.receiving hr] at hended
    cases hended hno'

theorem kept_goto (pc : Pc) (hended : n.reactor.pc.ended = true → pc.ended = true)
    (hsignals : pc.signals ≤ n.reactor.pc.signals) : Kept n (n.goto pc) :=
  ⟨rfl, rfl, rfl, rfl, rfl, rfl, rfl, rfl, rfl, rfl, id, id, hended, hsignals⟩

theorem kept_finish (result : Except IoError Unit) (hsignals : 1 ≤ n.reactor.pc.signals) : Kept n (n.finish result) :=
  ⟨rfl, rfl, rfl, rfl, rfl, rfl, rfl, rfl, rfl, rfl, id, (fun h => nomatch h), fun _ => rfl, hsignals⟩

theorem Fits.finish (h : Fits n) (result : Except IoError Unit) (hsignals : 1 ≤ n.reactor.pc.signals) :
    Fits (n.finish result) :=
  h.kept (kept_finish result hsignals) (fun h => nomatch h) (fun h => nomatch h) trivial

theorem finish_moves (h : Fits n) (before : n.reactor.pc.calm = true) (result : Except IoError Unit)
    (hsignals : 1 ≤ n.reactor.pc.signals) : Moves n (n.finish result) [] ∧ Fits (n.finish result) :=
  ⟨.calm (kept_finish result hsignals) before rfl, h.finish result hsignals⟩

theorem calm_moves (h : Fits n) (session stop isDraining : Bool) (readBuffer : Buffer) (before : n.reactor.pc.calm = true)
    {pc : Pc} (after : pc.calm = true) (hended : n.reactor.pc.ended = true → pc.ended = true)
    (hsignals : pc.signals ≤ n.reactor.pc.signals) (hstop : n.stop = true → stop = true)
    (hhalted : pc.halted = true → stop = true) (hpc : { n.reactor with isDraining, readBuffer, pc }.PcFits) :
    Moves n { n with session, stop, reactor := { n.reactor with isDraining, readBuffer, pc } } [] ∧
      Fits { n with session, stop, reactor := { n.reactor with isDraining, readBuffer, pc } } := by
  have hkept : Kept n { n with session, stop, reactor := { n.reactor with isDraining, readBuffer, pc } } :=
    ⟨rfl, rfl, rfl, rfl, rfl, rfl, rfl, rfl, rfl, rfl, hstop, id, hended, hsignals⟩
  exact ⟨.calm hkept before after, h.kept hkept (fun _ => rfl) hhalted hpc⟩

theorem goto_moves (h : Fits n) (before : n.reactor.pc.calm = true) {pc : Pc} (after : pc.calm = true)
    (hended : n.reactor.pc.ended = true → pc.ended = true) (hsignals : pc.signals ≤ n.reactor.pc.signals)
    (hhalted : pc.halted = true → n.stop = true) (hpc : { n.reactor with pc := pc }.PcFits) :
    Moves n (n.goto pc) [] ∧ Fits (n.goto pc) :=
  calm_moves h n.session n.stop n.reactor.isDraining n.reactor.readBuffer before after hended hsignals id hhalted hpc

/-! ### The arms -/

theorem Pc.ended_of_signals {pc : Pc} (h : pc.signals = 0) : pc.ended = true := by
  cases pc with
  | reported | closed => rfl
  | _ => cases h

theorem Pc.ended_elim {pc : Pc} {p : Prop} (h : pc.ended = false) (he : pc.ended = true) : p := by
  rw [h] at he
  cases he

theorem Fits.next (h : Fits n) (hended : n.reactor.pc.ended = false) (hreceiving : n'.receiving = n.receiving)
    (hhalted : n'.reactor.pc.halted = false) (ordered : ∀ command ∈ n'.reactor.commands, command.ordered = true)
    (exclusive : n'.reactor.streaming = true → n'.reactor.read = none)
    (uncredited : n'.reactor.streaming = false → n'.reactor.window.bytes = 0)
    (written : n'.reactor.written ≤ frontLength n'.reactor.commands) (pc : n'.reactor.PcFits) : Fits n' := by
  refine ⟨ordered, exclusive, fun _ => uncredited, written, ?_, ?_, pc⟩
  · intro hr
    rw [hreceiving] at hr
    exact Pc.ended_elim hended (h.receiving hr)
  · rw [hhalted]
    exact fun hh => nomatch hh

theorem stepCommands_moves (h : Fits n) (hpc : n.reactor.pc = .commands) :
    Moves n n.stepCommands [] ∧ Fits n.stepCommands := by
  have before : n.reactor.pc.calm = true := by rw [hpc]; rfl
  have hsignals : n.reactor.pc.signals = 1 := by rw [hpc]; rfl
  have hended : n.reactor.pc.ended = false := by rw [hpc]; rfl
  have hselect : Moves n { n with reactor := n.reactor.toSelect } [] ∧ Fits { n with reactor := n.reactor.toSelect } :=
    calm_moves h _ _ _ _ before rfl (Pc.ended_elim hended) hsignals.ge id nofun trivial
  unfold NativePort.stepCommands
  split
  · exact hselect
  · rename_i command rest hcommands
    split
    · exact finish_moves h before _ hsignals.ge
    · split
      · rename_i data hoperation
        obtain ⟨id, operation⟩ := command
        obtain rfl : operation = .write data := hoperation
        have hfront := h.written
        rw [hcommands] at hfront
        split
        · exact hselect
        · rename_i hwritten
          refine ⟨.written hpc hcommands (le_antisymm hfront (Nat.le_of_not_lt hwritten)), ?_⟩
          exact h.next hended rfl rfl h.ordered h.exclusive (h.uncredited hended) (Nat.zero_le _)
            ⟨⟨_, rest, hcommands, rfl⟩, rfl, .inl rfl, rfl⟩
      · rename_i hoperation
        refine goto_moves h before rfl (Pc.ended_elim hended) hsignals.ge (fun hh => nomatch hh) ?_
        refine ⟨command, rest, hcommands, ?_⟩
        have hordered := h.ordered command (by rw [hcommands]; exact List.mem_cons_self)
        obtain ⟨id, operation⟩ := command
        cases operation with
        | read | readCredit => cases hordered
        | write data => exact absurd rfl (hoperation data)
        | _ => rfl

theorem stepReceived_moves (h : Fits n) (hpc : n.reactor.pc = .select) (hstep : n.stepReceived = some n') :
    Moves n n' [] ∧ Fits n' := by
  have hended : n.reactor.pc.ended = false := by rw [hpc]; rfl
  unfold NativePort.stepReceived at hstep
  split at hstep
  · cases hstep
  · rename_i command channel hchannel
    obtain ⟨id, operation⟩ := command
    dsimp only at hstep
    split at hstep
    · rename_i length
      split at hstep
      · cases hstep
        refine ⟨.busy hpc hchannel rfl, ?_⟩
        exact h.next hended rfl rfl h.ordered h.exclusive (h.uncredited hended) h.written ⟨.inr ⟨rfl, rfl⟩⟩
      · rename_i hfree
        cases hstep
        rw [Bool.or_eq_true, not_or, Option.isSome_iff_ne_none, not_not, Bool.not_eq_true] at hfree
        refine ⟨.reading hpc hchannel hfree.1 hfree.2, ?_⟩
        refine h.next hended rfl rfl h.ordered (fun hs => ?_) (h.uncredited hended) h.written trivial
        exact absurd (hfree.2.symm.trans hs) nofun
    · rename_i bytes slots
      split at hstep
      · rename_i hinvalid
        cases hstep
        refine ⟨.overdrawn hpc hchannel ?_, ?_⟩
        · simpa [Option.isSome_iff_ne_none, or_assoc] using hinvalid
        · exact ⟨h.ordered, h.exclusive, (fun he => nomatch he), h.written, fun _ => rfl, (fun hh => nomatch hh), trivial⟩
      · rename_i hvalid
        cases hstep
        simp only [Bool.or_eq_true, decide_eq_true_eq, not_or, not_lt, Option.isSome_iff_ne_none, not_not] at hvalid
        refine ⟨.credited hpc hchannel hvalid.1.1 hvalid.1.2 hvalid.2, ?_⟩
        exact h.next hended rfl rfl h.ordered (fun _ => hvalid.1.1) (fun hs => nomatch hs) h.written trivial
    · rename_i hread hcredit
      cases hstep
      have hordered : Command.ordered ⟨id, operation⟩ = true := by
        cases operation with
        | read length => exact absurd rfl (hread length)
        | readCredit bytes slots => exact absurd rfl (hcredit bytes slots)
        | _ => rfl
      refine ⟨.enlisted hpc hchannel hordered, ?_⟩
      refine h.next hended rfl rfl ?_ h.exclusive (h.uncredited hended) ?_ trivial
      · intro command hmem
        rcases List.mem_append.1 hmem with hmem | hmem
        · exact h.ordered command hmem
        · rw [List.mem_singleton.1 hmem]
          exact hordered
      · exact h.written.trans (frontLength_append _ _)

theorem Reactor.fill_take (r : Reactor) (data : Buffer) : (r.fill data).take data.length = data := by
  unfold fill
  rw [List.take_left]

theorem Reactor.fill_length (r : Reactor) (data : Buffer) : data.length ≤ (r.fill data).length := by
  unfold fill
  rw [List.length_append]
  exact Nat.le_add_right _ _

theorem Reactor.write_some {r : Reactor} {rest : Buffer} (h : r.write = some rest) :
    ∃ id data commands, r.commands = ⟨id, .write data⟩ :: commands ∧ rest = data.drop r.written := by
  unfold write at h
  split at h
  · rename_i id data commands hcommands
    cases h
    exact ⟨id, data, commands, hcommands, rfl⟩
  · cases h

theorem Reactor.readCapacity_some {r : Reactor} {capacity : ℕ} (h : r.readCapacity = some capacity) :
    (∃ id length, r.read = some (id, length)) ∨
      r.read = none ∧ capacity ≤ r.window.bytes ∧ 0 < r.window.bytes ∧ 0 < r.window.slots := by
  unfold readCapacity at h
  cases hread : r.read with
  | some read => exact .inl ⟨read.1, read.2, rfl⟩
  | none =>
    right
    rw [hread] at h
    dsimp only at h
    split at h
    · rename_i hwindow
      cases h
      exact ⟨rfl, Nat.min_le_left _ _, hwindow.1, hwindow.2⟩
    · cases h

/-! ### Transfers -/

theorem Fits.polled (h : Fits n) (transfers : TransferPoller) :
    Fits { n with reactor := { n.reactor with transfers := transfers } } :=
  ⟨h.ordered, h.exclusive, h.uncredited, h.written, h.receiving, h.halted, h.pc⟩

theorem kept_polled (n : NativePort) (transfers : TransferPoller) :
    Kept n { n with reactor := { n.reactor with transfers := transfers } } :=
  ⟨rfl, rfl, rfl, rfl, rfl, rfl, rfl, rfl, rfl, rfl, id, id, id, le_refl _⟩

/-- A transfer that fails ends the reactor. -/
theorem polled_finish (h : Fits n) (hpc : n.reactor.pc = .select) (transfers : TransferPoller) (error : IoError) :
    Moves n ({ n with reactor := { n.reactor with transfers := transfers } }.finish (.error error)) [] ∧
      Fits ({ n with reactor := { n.reactor with transfers := transfers } }.finish (.error error)) := by
  have hsignals : n.reactor.pc.signals = 1 := by rw [hpc]; rfl
  have k : Kept n ({ n with reactor := { n.reactor with transfers := transfers } }.finish (.error error)) :=
    ⟨rfl, rfl, rfl, rfl, rfl, rfl, rfl, rfl, rfl, rfl, id, (fun h => by cases h), fun _ => rfl, hsignals.ge⟩
  exact ⟨.calm k (by rw [hpc]; rfl) rfl, (h.polled transfers).finish _ hsignals.ge⟩

theorem stepRead_moves (h : Fits n) (hpc : n.reactor.pc = .select) {transfers : TransferPoller} {capacity : ℕ}
    {data : Buffer} (hcapacity : n.reactor.readCapacity = some capacity) (hlength : data.length ≤ capacity)
    (hstep : NativePort.stepRead { n with reactor := { n.reactor with transfers := transfers } } capacity data = (n', out)) :
    Moves n n' out ∧ Fits n' := by
  have hended : n.reactor.pc.ended = false := by rw [hpc]; rfl
  unfold NativePort.stepRead at hstep
  dsimp only at hstep
  split at hstep
  · cases hstep
    exact polled_finish h hpc transfers _
  · rename_i hdata
    have hpos : 0 < data.length := List.length_pos_iff.2 hdata
    rcases Reactor.readCapacity_some hcapacity with ⟨id, length, hread⟩ | ⟨hread, hbytes, hwindow, hslots⟩
    · -- an explicit read excludes streaming
      have hstreaming : n.reactor.streaming = false := by
        by_contra hs
        have := h.exclusive (by simpa using hs)
        rw [hread] at this
        cases this
      rw [if_neg (by rw [hstreaming]; intro h; cases h)] at hstep
      split at hstep
      · rename_i hnone
        rw [show n.reactor.read = none from hnone] at hread
        cases hread
      · rename_i id' length' hread'
        rw [Reactor.fill_take] at hstep
        cases hstep
        refine ⟨.answered hpc (show n.reactor.read = _ from hread') hdata, ?_⟩
        exact h.next hended rfl rfl h.ordered (fun _ => rfl) (h.uncredited hended) h.written ⟨.inl rfl⟩
    · have hstreaming : n.reactor.streaming = true := by
        by_contra hs
        have := h.uncredited hended (by simpa using hs)
        omega
      rw [if_pos hstreaming] at hstep
      cases hstep
      refine ⟨.charged hpc hread hdata (le_trans hlength hbytes) hslots, ?_⟩
      refine h.next hended rfl rfl h.ordered h.exclusive (fun hs => ?_) h.written ⟨hpos, Reactor.fill_length _ data⟩
      cases hstreaming.symm.trans hs

/-- The device takes `count` bytes of the write at the front. -/
theorem wrote_moves (h : Fits n) (hpc : n.reactor.pc = .select) {transfers : TransferPoller} {count : ℕ} {rest : Buffer}
    (hwrite : n.reactor.write = some rest) (hcount : count ≤ rest.length) :
    Moves n { n with reactor := { n.reactor with
      transfers := transfers
      written := n.reactor.written + count
      pc := .top } } [.wrote (rest.take count)] ∧
    Fits { n with reactor := { n.reactor with
      transfers := transfers
      written := n.reactor.written + count
      pc := .top } } := by
  have hended : n.reactor.pc.ended = false := by rw [hpc]; rfl
  obtain ⟨id, data, commands, hcommands, rfl⟩ := Reactor.write_some hwrite
  have hle : n.reactor.written ≤ data.length := by
    have hwritten := h.written
    rw [hcommands] at hwritten
    exact hwritten
  have hfront : n.reactor.written + count ≤ data.length := by
    rw [List.length_drop] at hcount
    omega
  refine ⟨.wrote hpc hcommands hfront, ?_⟩
  refine h.next hended rfl rfl h.ordered h.exclusive (h.uncredited hended) ?_ trivial
  show n.reactor.written + count ≤ frontLength n.reactor.commands
  rw [hcommands]
  exact hfront

theorem stepTransfer_moves (h : Fits n) (hpc : n.reactor.pc = .select) {reader : Io Buffer} {writer : Io ℕ}
    (hstep : n.stepTransfer reader writer = some (n', out)) : Moves n n' out ∧ Fits n' := by
  have before : n.reactor.pc.calm = true := by rw [hpc]; rfl
  unfold NativePort.stepTransfer at hstep
  dsimp only at hstep
  split at hstep
  · cases hstep
  · have hpoll : ∀ transfer, (n.reactor.transfers.poll n.reactor.readCapacity n.reactor.write reader writer).1.1 =
        .ready transfer → _ := fun _ => TransferPoller.poll_ready
    generalize n.reactor.transfers.poll n.reactor.readCapacity n.reactor.write reader writer = p at hstep hpoll
    obtain ⟨⟨result, woken⟩, transfers⟩ := p
    dsimp only at hstep hpoll
    cases result with
    | pending =>
      cases hstep
      exact ⟨.calm (kept_polled n transfers) before before, h.polled transfers⟩
    | error error =>
      cases hstep
      exact polled_finish h hpc transfers error
    | ready transfer =>
      cases transfer with
      | read data =>
        dsimp only at hstep
        split at hstep
        · rename_i hlength
          rcases hpoll _ rfl with ⟨hsome, -⟩ | ⟨-, count, -, hcount⟩
          · obtain ⟨capacity, hcapacity⟩ := Option.isSome_iff_exists.1 hsome
            rw [hcapacity] at hstep hlength
            exact stepRead_moves h hpc hcapacity hlength (Option.some.inj hstep)
          · cases hcount
        · cases hstep
      | write count =>
        dsimp only at hstep
        split at hstep
        · rename_i hcount
          rcases hpoll _ rfl with ⟨-, data, -, hdata⟩ | ⟨hsome, -⟩
          · cases hdata
          · obtain ⟨rest, hrest⟩ := Option.isSome_iff_exists.1 hsome
            rw [hrest] at hstep hcount
            split at hstep
            · cases hstep
              exact polled_finish h hpc transfers _
            · cases hstep
              exact wrote_moves h hpc hrest hcount
        · cases hstep

/-! ### Sending -/

theorem send_eq (n : NativePort) (event : CallbackEvent) :
    n.send event = if n.Room then (some (n.push event), [.handed event]) else (none, [.refused event]) := rfl

theorem sendAnd_eq (n : NativePort) (event : CallbackEvent) (next : NativePort → NativePort) :
    n.sendAnd event next =
      if n.Room then (next (n.push event), [.handed event]) else (n.finish (.ok ()), [.refused event]) := by
  unfold NativePort.sendAnd
  rw [send_eq]
  by_cases hroom : n.Room
  · rw [if_pos hroom, if_pos hroom]
  · rw [if_neg hroom, if_neg hroom]

theorem refused_moves (h : Fits n) {n₁ : NativePort} (k : Kept n n₁) (hsignals : 1 ≤ n.reactor.pc.signals)
    (event : CallbackEvent) (full : ¬n.Room) :
    Moves n (n₁.finish (.ok ())) [.refused event] ∧ Fits (n₁.finish (.ok ())) := by
  have kf : Kept n (n₁.finish (.ok ())) :=
    ⟨k.commands, k.written, k.read, k.streaming, k.window, k.channel, k.callbacks, k.pendingOps, k.teardown, k.call,
      k.stop, (fun h => nomatch h), fun _ => rfl, hsignals⟩
  exact ⟨.refused kf rfl full, h.kept kf (fun h => nomatch h) (fun h => nomatch h) trivial⟩

theorem reply_moves (h : Fits n) {event : NativeEvent} {pc : Pc}
    (hpc : n.reactor.pc = .notify event ∨ n.reactor.pc = .reply event) (after : pc = .commands ∨ pc = .top)
    (hstep : n.sendAnd (.event event) (·.goto pc) = (n', out)) : Moves n n' out ∧ Fits n' := by
  have hsignals : n.reactor.pc.signals = 1 := by rcases hpc with hpc | hpc <;> rw [hpc] <;> rfl
  have hended : n.reactor.pc.ended = false := by rcases hpc with hpc | hpc <;> rw [hpc] <;> rfl
  rw [sendAnd_eq] at hstep
  split at hstep
  · cases hstep
    refine ⟨.replied hpc after, ?_⟩
    rcases after with rfl | rfl <;>
      exact h.next hended rfl rfl h.ordered h.exclusive (h.uncredited hended) h.written trivial
  · rename_i full
    cases hstep
    exact refused_moves h (kept_goto n.reactor.pc id (le_refl _)) hsignals.ge _ full

theorem sendRead_moves (h : Fits n) {length : ℕ} {pc : Pc}
    (hpc : n.reactor.pc = .single length ∨ n.reactor.pc = .first length) (after : pc = .top ∨ ∃ left, pc = .burst left none [])
    (hstep : n.sendRead length pc = (n', out)) : Moves n n' out ∧ Fits n' := by
  have hsignals : n.reactor.pc.signals = 1 := by rcases hpc with hpc | hpc <;> rw [hpc] <;> rfl
  have hended : n.reactor.pc.ended = false := by rcases hpc with hpc | hpc <;> rw [hpc] <;> rfl
  unfold NativePort.sendRead at hstep
  dsimp only at hstep
  rw [sendAnd_eq] at hstep
  split at hstep
  · cases hstep
    refine ⟨.sent hpc after, ?_⟩
    rcases after with rfl | ⟨left, rfl⟩
    · exact h.next hended rfl rfl h.ordered h.exclusive (h.uncredited hended) h.written trivial
    · exact h.next hended rfl rfl h.ordered h.exclusive (h.uncredited hended) h.written (.inl rfl)
  · rename_i full
    cases hstep
    refine refused_moves h ?_ hsignals.ge _ full
    exact ⟨rfl, rfl, rfl, rfl, rfl, rfl, rfl, rfl, rfl, rfl, id, id, id, le_refl _⟩

theorem stepBurst_moves (h : Fits n) {left : ℕ} {first : Option Buffer} {batch : List Buffer}
    (hpc : n.reactor.pc = .burst left first batch) (hgoes : n.burstGoesOn left = true) {result : Except IoError Buffer}
    (hstep : n.stepBurst left first batch result = some (n', out)) : Moves n n' out ∧ Fits n' := by
  have hended : n.reactor.pc.ended = false := by rw [hpc]; rfl
  have hcollected := h.burst hpc
  have hpublish : ∀ (readBuffer : Buffer) (result : Except IoError Unit),
      Moves n { n with reactor := { n.reactor with readBuffer := readBuffer, pc := .publish result first batch } } [] ∧
        Fits { n with reactor := { n.reactor with readBuffer := readBuffer, pc := .publish result first batch } } :=
    fun readBuffer result => ⟨.collected hpc,
      h.next hended rfl rfl h.ordered h.exclusive (h.uncredited hended) h.written hcollected⟩
  unfold NativePort.stepBurst at hstep
  dsimp only at hstep
  cases result with
  | error error =>
    dsimp only at hstep
    split at hstep <;> cases hstep <;> exact hpublish _ _
  | ok data =>
    dsimp only at hstep
    split at hstep
    · rename_i hlength
      split at hstep
      · cases hstep
        exact hpublish _ _
      · rename_i hdata
        rw [Reactor.fill_take] at hstep
        cases hstep
        simp only [NativePort.burstGoesOn, Bool.and_eq_true, decide_eq_true_eq] at hgoes
        refine ⟨.followed hpc hdata (hlength.trans (Nat.min_le_left _ _)) hgoes.2, ?_⟩
        refine h.next hended rfl rfl h.ordered h.exclusive (fun hs => ?_) h.written ?_
        · have hzero := h.uncredited hended hs
          omega
        · show (collect first batch data).1 = none ∨ (collect first batch data).2 = []
          unfold collect
          split
          · exact .inl rfl
          · split
            · rename_i hbatch
              exact .inr hbatch
            · exact .inl rfl
    · cases hstep

theorem stepPublish_moves (h : Fits n) {collected : Except IoError Unit} {first : Option Buffer} {batch : List Buffer}
    (hpc : n.reactor.pc = .publish collected first batch) (hstep : n.stepPublish collected first batch = (n', out)) :
    Moves n n' out ∧ Fits n' := by
  have hsignals : n.reactor.pc.signals = 1 := by rw [hpc]; rfl
  have hended : n.reactor.pc.ended = false := by rw [hpc]; rfl
  have hafter : ∀ m : NativePort, Fits m → m.reactor.pc = n.reactor.pc → Kept m (.afterBurst collected m) ∧
      (NativePort.afterBurst collected m).reactor.pc.calm = true ∧ Fits (.afterBurst collected m) := by
    intro m hm hsame
    have hsignals' : 1 ≤ m.reactor.pc.signals := by rw [hsame]; exact hsignals.ge
    have hended' : m.reactor.pc.ended = false := by rw [hsame]; exact hended
    cases collected with
    | ok =>
      have k : Kept m (m.goto .top) := kept_goto _ (Pc.ended_elim hended') hsignals'
      exact ⟨k, rfl, hm.kept k (fun _ => rfl) (fun hh => nomatch hh) trivial⟩
    | error error => exact ⟨kept_finish _ hsignals', rfl, hm.finish _ hsignals'⟩
  have hpush : ∀ event, Fits (n.push event) := fun event =>
    ⟨h.ordered, h.exclusive, h.uncredited, h.written, h.receiving, h.halted, h.pc⟩
  have hkeep : Kept n n := kept_goto n.reactor.pc id (le_refl _)
  unfold NativePort.stepPublish at hstep
  cases first with
  | some data =>
    dsimp only at hstep
    rw [sendAnd_eq] at hstep
    split at hstep
    · cases hstep
      obtain ⟨k, hcalm, hfits⟩ := hafter (n.push (.read data)) (hpush _) rfl
      exact ⟨.published hpc (.inl ⟨data, rfl, rfl⟩) k hcalm, hfits⟩
    · rename_i full
      cases hstep
      exact refused_moves h hkeep hsignals.ge _ full
  | none =>
    dsimp only at hstep
    split at hstep
    · rename_i hbatch
      cases hstep
      subst hbatch
      obtain ⟨k, hcalm, hfits⟩ := hafter n h rfl
      exact ⟨.unpublished hpc k hcalm, hfits⟩
    · rename_i hbatch
      rw [sendAnd_eq] at hstep
      split at hstep
      · cases hstep
        obtain ⟨k, hcalm, hfits⟩ := hafter (n.push (.readBatch batch)) (hpush _) rfl
        exact ⟨.published hpc (.inr ⟨rfl, hbatch, rfl⟩) k hcalm, hfits⟩
      · rename_i full
        cases hstep
        exact refused_moves h hkeep hsignals.ge _ full

/-! ### Commands -/

theorem operationEvent_completion (command : Command) (status : DeviceStatus) :
    IsCompletion (NativePort.operationEvent command status) ∧
      (NativePort.operationEvent command status).id = command.id := by
  unfold NativePort.operationEvent
  dsimp only
  split <;> exact ⟨⟨.inl rfl, rfl⟩, rfl⟩

theorem error_completion (id : ℕ) (error : IoError) : IsCompletion (NativeEvent.error id error) := ⟨.inr rfl, rfl⟩

theorem executed_moves (h : Fits n) (hpc : n.reactor.pc = .execute ∨ n.reactor.pc = .draining) {command : Command}
    {rest : List Command} (hcommands : n.reactor.commands = command :: rest) {event : NativeEvent}
    (hevent : IsCompletion event) (hid : event.id = command.id) :
    Moves n (n.goto (.complete event)) [.executed command] ∧ Fits (n.goto (.complete event)) := by
  have before : n.reactor.pc.calm = true := by rcases hpc with hpc | hpc <;> rw [hpc] <;> rfl
  have hended : n.reactor.pc.ended = false := by rcases hpc with hpc | hpc <;> rw [hpc] <;> rfl
  have hcontrol : command.control = true := by
    have hfits : ∃ command rest, n.reactor.commands = command :: rest ∧ command.control = true := by
      have hfits := h.pc
      unfold Reactor.PcFits at hfits
      rcases hpc with hpc | hpc <;> rw [hpc] at hfits <;> exact hfits
    obtain ⟨command', rest', hcommands', hcontrol⟩ := hfits
    rw [hcommands] at hcommands'
    cases hcommands'
    exact hcontrol
  have hwritten : n.reactor.written = 0 := by
    have hle := h.written
    obtain ⟨id, operation⟩ := command
    rw [hcommands] at hle
    cases operation with
    | write data => cases hcontrol
    | _ => exact Nat.le_zero.1 hle
  refine ⟨.executed before hended hcommands hcontrol, ?_⟩
  exact h.next hended rfl rfl h.ordered h.exclusive (h.uncredited hended) h.written
    ⟨⟨command, rest, hcommands, hid⟩, hwritten, hevent⟩

/-! ### The reactor -/

section

variable {result : Except IoError Unit}

theorem opened_moves (h : Fits n) (hpc : n.reactor.pc = .opened) (hstep : n.stepReactor .run = some (n', out)) :
    Moves n n' out ∧ Fits n' := by
  have hended : n.reactor.pc.ended = false := by rw [hpc]; rfl
  have hdone : Kept n (n.goto (.done (.ok ()))) := kept_goto _ (fun _ => rfl) (by rw [hpc]; decide)
  simp only [NativePort.stepReactor, hpc] at hstep
  split at hstep
  · cases hstep
    exact goto_moves h (by rw [hpc]; rfl) rfl (fun _ => rfl) (by rw [hpc]; decide) nofun trivial
  · rw [send_eq] at hstep
    by_cases hroom : n.Room
    · rw [if_pos hroom] at hstep
      cases hstep
      refine ⟨.signalled (.inl ⟨hpc, rfl, rfl⟩) rfl, ?_⟩
      exact h.next hended rfl rfl h.ordered h.exclusive (h.uncredited hended) h.written trivial
    · rw [if_neg hroom] at hstep
      cases hstep
      exact ⟨.refused hdone rfl hroom, h.kept hdone (fun _ => rfl) nofun trivial⟩

theorem asked_moves (h : Fits n) (hpc : n.reactor.pc = .execute) {result : Except IoError ℕ}
    (hstep : n.stepReactor (.bytesToWrite result) = some (n', out)) : Moves n n' out ∧ Fits n' := by
  simp only [NativePort.stepReactor, hpc] at hstep
  split at hstep
  · rename_i number rest hcommands
    cases result with
    | error error =>
      cases hstep
      exact finish_moves h (by rw [hpc]; rfl) _ (by rw [hpc]; decide)
    | ok count =>
      dsimp only at hstep
      split at hstep <;> cases hstep
      · exact calm_moves h _ _ true _ (by rw [hpc]; rfl) rfl (by rw [hpc]; exact id) (by rw [hpc]; exact le_refl _) id
          nofun trivial
      · exact goto_moves h (by rw [hpc]; rfl) rfl (by rw [hpc]; exact id) (by rw [hpc]; exact le_refl _) nofun
          ⟨_, rest, hcommands, rfl⟩
  · cases hstep

theorem execute_moves (h : Fits n) (hpc : n.reactor.pc = .execute) {result : Except IoError DeviceStatus}
    (hstep : n.stepReactor (.executed result) = some (n', out)) : Moves n n' out ∧ Fits n' := by
  simp only [NativePort.stepReactor, hpc] at hstep
  split at hstep
  · cases hstep
  · cases hstep
  · rename_i command rest hno hcommands
    cases result with
    | ok status =>
      cases hstep
      obtain ⟨hevent, hid⟩ := operationEvent_completion command status
      exact executed_moves h (.inl hpc) hcommands hevent hid
    | error error =>
      cases hstep
      exact executed_moves h (.inl hpc) hcommands (error_completion _ _) rfl

theorem drained_moves (h : Fits n) (hpc : n.reactor.pc = .draining)
    (hstep : n.stepReactor (.drained result) = some (n', out)) : Moves n n' out ∧ Fits n' := by
  simp only [NativePort.stepReactor, hpc] at hstep
  split at hstep
  · cases hstep
  · rename_i command rest hcommands
    cases result with
    | ok status =>
      cases hstep
      exact executed_moves h (.inr hpc) hcommands ⟨.inl rfl, rfl⟩ rfl
    | error error =>
      cases hstep
      exact executed_moves h (.inr hpc) hcommands (error_completion _ _) rfl

theorem complete_moves (h : Fits n) {event : NativeEvent} (hpc : n.reactor.pc = .complete event)
    (hstep : n.stepReactor .run = some (n', out)) : Moves n n' out ∧ Fits n' := by
  have hended : n.reactor.pc.ended = false := by rw [hpc]; rfl
  obtain ⟨-, hwritten, hevent⟩ := h.complete hpc
  simp only [NativePort.stepReactor, hpc] at hstep
  cases hstep
  refine ⟨.popped hpc, ?_⟩
  refine h.next hended rfl rfl ?_ h.exclusive (h.uncredited hended) ?_ hevent
  · exact fun command hmem => h.ordered command (List.mem_of_mem_tail hmem)
  · show n.reactor.written ≤ _
    rw [hwritten]
    exact Nat.zero_le _

theorem filled_moves (h : Fits n) {length : ℕ} {full : Bool} (hpc : n.reactor.pc = .filled length full)
    (hstep : n.stepReactor .run = some (n', out)) : Moves n n' out ∧ Fits n' := by
  have hended : n.reactor.pc.ended = false := by rw [hpc]; rfl
  have hfits := h.reading (.inl ⟨full, hpc⟩)
  simp only [NativePort.stepReactor, hpc] at hstep
  split at hstep <;> cases hstep
  · exact ⟨.chosen hpc (.inl rfl), h.next hended rfl rfl h.ordered h.exclusive (h.uncredited hended) h.written hfits⟩
  · exact ⟨.chosen hpc (.inr rfl), h.next hended rfl rfl h.ordered h.exclusive (h.uncredited hended) h.written hfits⟩

theorem collected_moves (h : Fits n) {left : ℕ} {first : Option Buffer} {batch : List Buffer}
    (hpc : n.reactor.pc = .burst left first batch) :
    Moves n (n.goto (.publish (.ok ()) first batch)) [] ∧ Fits (n.goto (.publish (.ok ()) first batch)) := by
  have hended : n.reactor.pc.ended = false := by rw [hpc]; rfl
  exact ⟨.collected hpc, h.next hended rfl rfl h.ordered h.exclusive (h.uncredited hended) h.written (h.burst hpc)⟩

theorem released_moves (h : Fits n) (hpc : n.reactor.pc = .released result)
    (hstep : n.stepReactor .run = some (n', out)) : Moves n n' out ∧ Fits n' := by
  have hstop : n.stop = true := h.halted (by rw [hpc]; rfl)
  have hreported : Kept n (n.goto .reported) := kept_goto _ (fun _ => rfl) (by rw [hpc]; exact Nat.zero_le _)
  have hpush : ∀ event : CallbackEvent, Fits ((n.push event).goto .reported) := fun event =>
    ⟨h.ordered, h.exclusive, nofun, h.written, fun _ => rfl, fun _ => hstop, trivial⟩
  have hkind : (NativePort.closeEvent result).kind = .closed ∧ (NativePort.closeEvent result).data = none := by
    cases result <;> exact ⟨rfl, rfl⟩
  simp only [NativePort.stepReactor, hpc] at hstep
  rw [send_eq] at hstep
  by_cases hroom : n.Room
  · rw [if_pos hroom] at hstep
    cases hstep
    exact ⟨.signalled (.inr ⟨⟨_, hpc⟩, rfl, hkind.1⟩) hkind.2, hpush _⟩
  · rw [if_neg hroom] at hstep
    cases hstep
    exact ⟨.refused hreported rfl hroom, h.kept hreported (fun _ => rfl) (fun _ => hstop) trivial⟩

theorem reported_moves (h : Fits n) (hpc : n.reactor.pc = .reported) :
    Moves n ({ n with receiving := false }.goto .closed) [] ∧ Fits ({ n with receiving := false }.goto .closed) := by
  have hstop : n.stop = true := h.halted (by rw [hpc]; rfl)
  have hkept : Kept n ({ n with receiving := false }.goto .closed) :=
    ⟨rfl, rfl, rfl, rfl, rfl, rfl, rfl, rfl, rfl, rfl, id, nofun, by rw [hpc]; exact id, by rw [hpc]; exact le_refl _⟩
  exact ⟨.calm hkept (by rw [hpc]; rfl) rfl, h.kept hkept nofun (fun _ => hstop) trivial⟩

end

/-- **The reactor makes no other transition**, and what holds wherever it stands is kept. -/
theorem stepReactor_moves (h : Fits n) {input : ReactorInput} (hstep : n.stepReactor input = some (n', out)) :
    Moves n n' out ∧ Fits n' := by
  have hwhole := hstep
  unfold NativePort.stepReactor at hstep
  split at hstep
  -- opening
  · rename_i hpc
    cases hstep
    exact calm_moves h true _ _ _ (by rw [hpc]; rfl) rfl (by rw [hpc]; exact id) (by rw [hpc]; exact le_refl _) id nofun
      trivial
  · rename_i hpc
    cases hstep
    exact goto_moves h (by rw [hpc]; rfl) rfl (fun _ => rfl) (by rw [hpc]; exact Nat.le_succ 1) nofun trivial
  · rename_i hpc
    exact opened_moves h hpc hwhole
  -- the commands
  · rename_i hpc
    split at hstep <;> cases hstep
    · exact finish_moves h (by rw [hpc]; rfl) _ (by rw [hpc]; decide)
    · exact calm_moves h _ _ false _ (by rw [hpc]; rfl) rfl (by rw [hpc]; exact id) (by rw [hpc]; exact le_refl _) id nofun
        trivial
  · rename_i hpc
    cases hstep
    exact stepCommands_moves h hpc
  · rename_i hpc
    exact asked_moves h hpc hwhole
  · rename_i hpc
    exact execute_moves h hpc hwhole
  · rename_i hpc
    exact drained_moves h hpc hwhole
  · rename_i hpc
    exact complete_moves h hpc hwhole
  · rename_i event hpc
    exact reply_moves h (.inl hpc) (.inl rfl) (Option.some.inj hstep)
  · rename_i event hpc
    exact reply_moves h (.inr hpc) (.inr rfl) (Option.some.inj hstep)
  -- `select`
  · rename_i hpc
    cases hstep
    exact goto_moves h (by rw [hpc]; rfl) rfl (by rw [hpc]; exact id) (by rw [hpc]; exact le_refl _) nofun trivial
  · rename_i hpc
    obtain ⟨m, hm, heq⟩ := Option.map_eq_some_iff.1 hstep
    cases heq
    exact stepReceived_moves h hpc hm
  · rename_i hpc
    split at hstep <;> cases hstep
    exact finish_moves h (by rw [hpc]; rfl) _ (by rw [hpc]; decide)
  · rename_i reader writer hpc
    exact stepTransfer_moves h hpc hstep
  · rename_i hpc
    split at hstep <;> cases hstep
    exact goto_moves h (by rw [hpc]; rfl) rfl (by rw [hpc]; exact id) (by rw [hpc]; exact le_refl _) nofun trivial
  -- a read
  · rename_i length full hpc
    exact filled_moves h hpc hwhole
  · rename_i length hpc
    exact sendRead_moves h (.inl hpc) (.inl rfl) (Option.some.inj hstep)
  · rename_i length hpc
    refine sendRead_moves h (.inr hpc) ?_ (Option.some.inj hstep)
    split
    · exact .inl rfl
    · exact .inr ⟨_, rfl⟩
  · rename_i left first batch hpc
    split at hstep <;> cases hstep
    exact collected_moves h hpc
  · rename_i left first batch hpc
    split at hstep <;> cases hstep
    exact collected_moves h hpc
  · rename_i left first batch result hpc
    split at hstep
    · rename_i hgoes
      exact stepBurst_moves h hpc hgoes hstep
    · cases hstep
  · rename_i collected first batch hpc
    exact stepPublish_moves h hpc (Option.some.inj hstep)
  -- `Completion` is dropped
  · rename_i result hpc
    cases hstep
    exact calm_moves h _ true _ _ (by rw [hpc]; rfl) rfl (by rw [hpc]; exact id) (by rw [hpc]; exact le_refl _)
      (fun _ => rfl) (fun _ => rfl) trivial
  · rename_i result hpc
    cases hstep
    have hstop : n.stop = true := h.halted (by rw [hpc]; rfl)
    exact calm_moves h false _ _ _ (by rw [hpc]; rfl) rfl (by rw [hpc]; exact id) (by rw [hpc]; exact le_refl _) id
      (fun _ => hstop) trivial
  · rename_i result hpc
    exact released_moves h hpc hwhole
  · rename_i hpc
    cases hstep
    exact reported_moves h hpc
  · cases hstep

/-! ### The other steps -/

/-- The reactor's part of the state, and the events it has sent. -/
structure SameReactor (n n' : NativePort) : Prop where
  reactor : n'.reactor = n.reactor
  receiving : n'.receiving = n.receiving
  stop : n.stop = true → n'.stop = true

theorem Fits.sameReactor (h : Fits n) (hs : SameReactor n n') : Fits n' :=
  ⟨by rw [hs.reactor]; exact h.ordered, by rw [hs.reactor]; exact h.exclusive, by rw [hs.reactor]; exact h.uncredited,
    by rw [hs.reactor]; exact h.written, by rw [hs.reactor, hs.receiving]; exact h.receiving,
    by rw [hs.reactor]; exact fun hh => hs.stop (h.halted hh), by rw [hs.reactor]; exact h.pc⟩

/-- Neither a read of the device, nor an event that is sent. -/
def Output.isLocal : Output → Bool
  | .readData _ | .handed _ | .refused _ => false
  | _ => true

theorem local_nil : ∀ o ∈ ([] : List Output), o.isLocal = true := fun _ ho => absurd ho List.not_mem_nil

/-- Where a call goes next, in the steps that change its stage only. -/
inductive CallGoes (n : NativePort) : Call → Call → Prop
  | checked {call : NativeCall} : CallGoes n (.check call) (n.checkCall call)
  | stopped {id : ℕ} {data : Buffer} {inline : Bool} (hstop : n.stop = true) :
      CallGoes n (.recheck id data inline) (.returned (.thrown closedError))
  | rechecked {id : ℕ} {data : Buffer} {inline : Bool} (hstop : n.stop = false) :
      CallGoes n (.recheck id data inline) (.ready id data inline)
  | tries {id : ℕ} {data : Buffer} (hidle : n.pendingOps = 0) : CallGoes n (.ready id data true) (.tryWrite id data)
  | queues {id : ℕ} {data : Buffer} {inline : Bool} : CallGoes n (.ready id data inline) (.enqueue ⟨id, .write data⟩)
  | waits {id : ℕ} {data : Buffer} : CallGoes n (.tryWrite id data) (.enqueue ⟨id, .write data⟩)
  | closed {c : Command} (hstop : n.stop = true) : CallGoes n (.enqueue c) (.returned (.thrown closedError))
  | reserves {c : Command} (hstop : n.stop = false) (hordered : c.ordered = true) : CallGoes n (.enqueue c) (.reserve c)
  | sends {c : Command} (hstop : n.stop = false) (hordered : c.ordered = false) : CallGoes n (.enqueue c) (.send c)
  | undoes {c : Command} {error : Binding.SerialError} (hordered : c.ordered = true)
      (h : n.receiving = false ∨ maxPendingOps + readSlots ≤ n.channel.length) : CallGoes n (.send c) (.undo error)
  | fails {c : Command} {error : Binding.SerialError} (hordered : c.ordered = false)
      (h : n.receiving = false ∨ maxPendingOps + readSlots ≤ n.channel.length) :
      CallGoes n (.send c) (.returned (.thrown error))

/-- **The steps of a call**, with what each of them has found. -/
inductive CallMoves (n : NativePort) : Call → NativePort → List Output → Prop
  | goes {stage stage' : Call} (h : CallGoes n stage stage') : CallMoves n stage { n with call := some stage' } []
  | wrote {id count : ℕ} {data : Buffer} (hcount : count < data.length) :
      CallMoves n (.tryWrite id data) { n with call := some (.enqueue ⟨id, .write (data.drop count)⟩) }
        [.wrote (data.take count)]
  | completed {id : ℕ} {data : Buffer} :
      CallMoves n (.tryWrite id data) { n with call := some (.returned .completed) } [.wrote data]
  | backlog {c : Command} {error : Binding.SerialError} (h : maxPendingOps ≤ n.pendingOps) :
      CallMoves n (.reserve c) { n with pendingOps := n.pendingOps + 1, call := some (.undo error) } []
  | reserved {c : Command} (h : n.pendingOps < maxPendingOps) :
      CallMoves n (.reserve c) { n with pendingOps := n.pendingOps + 1, call := some (.send c) } []
  | pushed {c : Command} (hreceiving : n.receiving = true) (hroom : n.channel.length < maxPendingOps + readSlots) :
      CallMoves n (.send c) { n with channel := n.channel ++ [c], call := some (.returned .queued) } []
  | undone {error : Binding.SerialError} :
      CallMoves n (.undo error) { n with pendingOps := n.pendingOps - 1, call := some (.returned (.thrown error)) } []

/-- A call makes no other step. -/
theorem stepCall_moves {stage : Call} {writer : Io ℕ} (hstep : n.stepCall stage writer = some (n', out)) :
    CallMoves n stage n' out := by
  unfold NativePort.stepCall at hstep
  dsimp only at hstep
  cases stage with
  | check call =>
    cases hstep
    exact .goes .checked
  | recheck id data inline =>
    dsimp only at hstep
    split at hstep <;> cases hstep
    · rename_i hstop
      exact .goes (.stopped hstop)
    · rename_i hstop
      exact .goes (.rechecked (Bool.eq_false_of_not_eq_true hstop))
  | ready id data inline =>
    dsimp only at hstep
    split at hstep <;> cases hstep
    · rename_i hinline
      obtain ⟨rfl, hidle⟩ := hinline
      exact .goes (.tries hidle)
    · exact .goes .queues
  | tryWrite id data =>
    dsimp only at hstep
    split at hstep
    · cases hstep
      exact .goes .waits
    · split at hstep
      · split at hstep
        · rename_i hcount
          cases hstep
          exact .wrote hcount
        · split at hstep <;> cases hstep
          exact .completed
      · cases hstep
        exact .goes .waits
  | enqueue c =>
    dsimp only at hstep
    split at hstep
    · rename_i hstop
      cases hstep
      exact .goes (.closed hstop)
    · rename_i hstop
      have hstop' := Bool.eq_false_of_not_eq_true hstop
      split at hstep <;> cases hstep
      · rename_i hordered
        exact .goes (.reserves hstop' hordered)
      · rename_i hordered
        exact .goes (.sends hstop' (Bool.eq_false_of_not_eq_true hordered))
  | reserve c =>
    dsimp only at hstep
    split at hstep <;> cases hstep
    · rename_i hbacklog
      exact .backlog hbacklog
    · rename_i hroom
      exact .reserved (Nat.lt_of_not_le hroom)
  | send c =>
    have hfailed : ∀ error, n.receiving = false ∨ maxPendingOps + readSlots ≤ n.channel.length →
        CallGoes n (.send c) (if c.ordered then .undo error else .returned (.thrown error)) := by
      intro error h
      split
      · rename_i hordered
        exact .undoes hordered h
      · rename_i hordered
        exact .fails (Bool.eq_false_of_not_eq_true hordered) h
    dsimp only at hstep
    split at hstep
    · rename_i hclosed
      cases hstep
      exact .goes (hfailed _ (.inl (by simpa using hclosed)))
    · rename_i hreceiving
      split at hstep <;> cases hstep
      · rename_i hfull
        exact .goes (hfailed _ (.inr hfull))
      · rename_i hroom
        exact .pushed (by simpa using hreceiving) (Nat.lt_of_not_le hroom)
  | undo error =>
    cases hstep
    exact .undone
  | returned answer => cases hstep

theorem stepCall_sameReactor {call : Call} {writer : Io ℕ} (hstep : n.stepCall call writer = some (n', out)) :
    SameReactor n n' ∧ n'.callbacks = n.callbacks ∧ n'.teardown = n.teardown ∧ n'.stop = n.stop ∧
      ∀ o ∈ out, o.isLocal = true := by
  cases stepCall_moves hstep with
  | wrote | completed => exact ⟨⟨rfl, rfl, id⟩, rfl, rfl, rfl, by simp [Output.isLocal]⟩
  | _ => exact ⟨⟨rfl, rfl, id⟩, rfl, rfl, rfl, local_nil⟩

theorem step_sameReactor {i : Input} (hi : ∀ input, i ≠ .reactor input) (hstep : native.step n i = some (n', out)) :
    SameReactor n n' ∧ ∀ o ∈ out, o.isLocal = true := by
  have hsingle : ∀ o : Output, o.isLocal = true → ∀ o' ∈ [o], o'.isLocal = true := by
    intro o ho o' ho'
    rw [List.mem_singleton.1 ho']
    exact ho
  change n.step i = _ at hstep
  unfold NativePort.step at hstep
  cases i with
  | reactor input => exact absurd rfl (hi input)
  | call call =>
    dsimp only at hstep
    split at hstep <;> cases hstep
    exact ⟨⟨rfl, rfl, id⟩, local_nil⟩
  | advance writer =>
    dsimp only at hstep
    split at hstep
    · cases hstep
    · obtain ⟨hs, -, -, -, hlocal⟩ := stepCall_sameReactor hstep
      exact ⟨hs, hlocal⟩
  | returns =>
    dsimp only at hstep
    split at hstep <;> cases hstep
    exact ⟨⟨rfl, rfl, id⟩, hsingle _ rfl⟩
  | stop =>
    cases hstep
    exact ⟨⟨rfl, rfl, fun _ => rfl⟩, local_nil⟩
  | teardown =>
    cases hstep
    exact ⟨⟨rfl, rfl, id⟩, local_nil⟩
  | consume =>
    dsimp only at hstep
    split at hstep <;> cases hstep
    exact ⟨⟨rfl, rfl, id⟩, hsingle _ rfl⟩

/-- **A step of the port** is a transition of the reactor, or leaves the reactor alone. -/
theorem step_moves (h : Fits n) {i : Input} (hstep : native.step n i = some (n', out)) :
    Moves n n' out ∧ Fits n' ∨ SameReactor n n' ∧ ∀ o ∈ out, o.isLocal = true := by
  by_cases hi : ∃ input, i = .reactor input
  · obtain ⟨input, rfl⟩ := hi
    exact .inl (stepReactor_moves h hstep)
  · exact .inr (step_sameReactor (fun input heq => hi ⟨input, heq⟩) hstep)

theorem Fits.step (h : Fits n) {i : Input} (hstep : native.step n i = some (n', out)) : Fits n' := by
  rcases step_moves h hstep with ⟨-, hfits⟩ | ⟨hs, -⟩
  · exact hfits
  · exact h.sameReactor hs

theorem Fits.start : Fits {} := by
  refine ⟨fun command hmem => absurd hmem List.not_mem_nil, fun _ => rfl, fun _ _ => rfl, le_refl 0, ?_, ?_, trivial⟩
  · intro hr
    cases hr
  · intro hh
    cases hh

end NodeSerialport.Native
