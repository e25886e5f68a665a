import NodeSerialport.Native.Steps
/-!
# Calls of the native handle

While JavaScript is inside a call of the native handle, the native side takes it from its checks to its answer.

* `command`, `payload` — what a call asks for;
* `Staged` — a stage belongs to a call;
* `CallStep` — what one step of a call does;
* `Atom` — what an ordered operation asks of the device: the bytes of a write, one by one, or a control operation.
-/

namespace NodeSerialport.Native

open Parsers (Buffer)
open Binding (NativeCall)

/-! ### What a call asks for -/

/-- The calls that carry an ordered operation. -/
def ordered : NativeCall → Bool
  | .read .. | .readCredit .. => false
  | _ => true

/-- Whether a write may try the device at once. -/
def inline : NativeCall → Bool
  | .write _ _ inline | .writev _ _ _ inline => inline
  | _ => false

/-- The bytes of a write. -/
def payload : NativeCall → Buffer
  | .write _ data _ => data
  | .writev _ data _ _ => data.flatten
  | _ => []

/-- The command of a call of which nothing was done at once. -/
def command : NativeCall → Command
  | .read id length => ⟨id, .read length.toNat⟩
  | .readCredit bytes slots => ⟨0, .readCredit bytes.toNat slots.toNat⟩
  | .write id data _ => ⟨id, .write data⟩
  | .writev id data _ _ => ⟨id, .write data.flatten⟩
  | .request id operation value =>
    ⟨id, match operation with
      | .update => .update value
      | .set => .set value
      | .get => .get
      | .getBaudRate => .getBaudRate
      | .flush => .flush
      | .drain => .drain⟩

theorem command_ordered (call : NativeCall) : (command call).ordered = ordered call := by
  cases call with
  | request id operation value => cases operation <;> rfl
  | _ => rfl

theorem command_id (call : NativeCall) : (command call).id = call.id := by
  cases call <;> rfl

theorem ordered_of_mayComplete {call : NativeCall} (h : call.mayComplete = true) : ordered call = true := by
  cases call with
  | write | writev => rfl
  | _ => cases h

/-! ### What the device is asked for -/

inductive Atom where
  | byte (byte : UInt8)
  | control (command : Command)
  deriving DecidableEq, Repr

def bytes (data : Buffer) : List Atom := data.map .byte

@[simp] theorem bytes_append (a b : Buffer) : bytes (a ++ b) = bytes a ++ bytes b := List.map_append

/-- What a command still asks of the device. -/
def atoms (c : Command) : List Atom :=
  match c.operation with
  | .read _ | .readCredit .. => []
  | .write data => bytes data
  | _ => [.control c]

theorem atoms_unordered {c : Command} (h : c.ordered = false) : atoms c = [] := by
  obtain ⟨id, operation⟩ := c
  cases operation with
  | read | readCredit => rfl
  | _ => cases h

theorem atoms_control {c : Command} (h : c.control = true) : atoms c = [.control c] := by
  obtain ⟨id, operation⟩ := c
  cases operation with
  | read | readCredit | write => cases h
  | _ => rfl

theorem mem_atoms_control {c c' : Command} (h : .control c ∈ atoms c') : c' = c ∧ atoms c' = [.control c] := by
  obtain ⟨id, operation⟩ := c'
  cases operation with
  | read | readCredit => cases h
  | write data =>
    obtain ⟨byte, -, hbyte⟩ := List.mem_map.1 h
    cases hbyte
  | _ =>
    obtain rfl := Atom.control.inj (List.mem_singleton.1 h)
    exact ⟨rfl, rfl⟩

/-! ### The stages of a call -/

/-- The command a call submits: the whole operation, or what an immediate write left of it. -/
def Submits (call : NativeCall) (c : Command) : Prop :=
  c = command call ∨
    call.mayComplete = true ∧ inline call = true ∧ ∃ count, c = ⟨call.id, .write ((payload call).drop count)⟩

theorem Submits.id {call : NativeCall} {c : Command} (h : Submits call c) : c.id = call.id := by
  rcases h with rfl | ⟨-, -, count, rfl⟩
  · exact command_id call
  · rfl

theorem Submits.ordered {call : NativeCall} {c : Command} (h : Submits call c) : c.ordered = ordered call := by
  rcases h with rfl | ⟨hmay, -, count, rfl⟩
  · exact command_ordered call
  · exact (ordered_of_mayComplete hmay).symm

/-- **A stage belongs to a call.** -/
inductive Staged (call : NativeCall) : Call → Prop
  | check : Staged call (.check call)
  | recheck (hmay : call.mayComplete = true) : Staged call (.recheck call.id (payload call) (inline call))
  | ready (hmay : call.mayComplete = true) : Staged call (.ready call.id (payload call) (inline call))
  | tryWrite (hmay : call.mayComplete = true) (hinline : inline call = true) :
      Staged call (.tryWrite call.id (payload call))
  | enqueue {c : Command} (h : Submits call c) : Staged call (.enqueue c)
  | reserve {c : Command} (h : Submits call c) (hordered : ordered call = true) : Staged call (.reserve c)
  | send {c : Command} (h : Submits call c) : Staged call (.send c)
  | undo {error : Binding.SerialError} (hordered : ordered call = true) : Staged call (.undo error)
  | completed (hmay : call.mayComplete = true) (hinline : inline call = true) : Staged call (.returned .completed)
  | queued : Staged call (.returned .queued)
  | thrown {error : Binding.SerialError} : Staged call (.returned (.thrown error))

/-- What a call still has to hand over: to the device at once, or with its command. -/
def Call.rest : Call → List Atom
  | .check call => atoms (command call)
  | .recheck _ data _ | .ready _ data _ | .tryWrite _ data => bytes data
  | .enqueue c | .reserve c | .send c => atoms c
  | .undo _ | .returned _ => []

/-- How many of `pending_ops` a call has reserved for a command that is not in the channel. -/
def Call.reserved : Call → ℕ
  | .send c => if c.ordered then 1 else 0
  | .undo _ => 1
  | _ => 0

/-- The call will throw. -/
def Call.refuses : Call → Bool
  | .undo _ | .returned (.thrown _) => true
  | _ => false

/-- The command is in the channel. -/
def Call.pushed : Call → Bool
  | .returned .queued => true
  | _ => false

/-- Why a call is refused once its arguments were checked. -/
inductive Refused (n : NativePort) : Call → Prop
  | invalid {call : NativeCall} : Refused n (.check call)
  | stopped {stage : Call} (h : n.stop = true) : Refused n stage
  | backlog {c : Command} (h : maxPendingOps ≤ n.pendingOps) : Refused n (.reserve c)
  | closed {c : Command} (h : n.receiving = false) : Refused n (.send c)
  | full {c : Command} (h : maxPendingOps + readSlots ≤ n.channel.length) : Refused n (.send c)

/-- **What one step of a call does.** -/
inductive CallStep (call : NativeCall) (n : NativePort) (stage : Call) : NativePort → Call → List Output → Prop
  /-- The call goes on, and changes nothing. -/
  | goes {stage' : Call} (hrest : stage'.rest = stage.rest) (hreserved : stage'.reserved = stage.reserved)
      (hrefuses : stage.refuses = false) (hrefuses' : stage'.refuses = false) (hpushed : stage'.pushed = false)
      (hpushed' : stage.pushed = false) :
      CallStep call n stage { n with call := some stage' } stage' []
  /-- The device takes the first bytes at once. -/
  | wrote {count : ℕ} {stage' : Call} (hstage : stage = .tryWrite call.id (payload call)) (hinline : inline call = true)
      (hcount : count ≤ (payload call).length) (hrest : stage'.rest = bytes ((payload call).drop count))
      (hstage' : stage' = .returned .completed ∨ ∃ c, stage' = .enqueue c) :
      CallStep call n stage { n with call := some stage' } stage' [.wrote ((payload call).take count)]
  | reserved {c : Command} (hstage : stage = .reserve c) (hordered : c.ordered = true) :
      CallStep call n stage { n with pendingOps := n.pendingOps + 1, call := some (.send c) } (.send c) []
  | pushed {c : Command} (hstage : stage = .send c) (h : Submits call c) :
      CallStep call n stage { n with channel := n.channel ++ [c], call := some (.returned .queued) } (.returned .queued) []
  | refused {stage' : Call} {pendingOps : ℕ} (h : Refused n stage) (hrefuses : stage'.refuses = true)
      (hpending : pendingOps + stage.reserved = n.pendingOps + stage'.reserved) :
      CallStep call n stage { n with pendingOps := pendingOps, call := some stage' } stage' []
  | undone {error : Binding.SerialError} (hstage : stage = .undo error) :
      CallStep call n stage { n with pendingOps := n.pendingOps - 1, call := some (.returned (.thrown error)) }
        (.returned (.thrown error)) []

theorem checkCall_cases (n : NativePort) (call : NativeCall) :
    (∃ error, n.checkCall call = .returned (.thrown error)) ∨ n.checkCall call = .enqueue (command call) ∨
      call.mayComplete = true ∧ n.stop = false ∧
        (n.checkCall call = .recheck call.id (payload call) (inline call) ∨
          n.checkCall call = .ready call.id (payload call) (inline call)) := by
  unfold NativePort.checkCall
  cases call with
  | read id length | readCredit bytes slots =>
    dsimp only
    split
    · exact .inr (.inl rfl)
    · exact .inl ⟨_, rfl⟩
  | write id data inline =>
    dsimp only
    split
    · exact .inl ⟨_, rfl⟩
    · split
      · exact .inl ⟨_, rfl⟩
      · rename_i hstop
        exact .inr (.inr ⟨rfl, Bool.eq_false_of_not_eq_true hstop, .inr rfl⟩)
  | writev id buffers length inline =>
    dsimp only
    split
    · exact .inl ⟨_, rfl⟩
    · rename_i hstop
      split
      · exact .inr (.inr ⟨rfl, Bool.eq_false_of_not_eq_true hstop, .inl rfl⟩)
      · exact .inl ⟨_, rfl⟩
  | request id operation value => exact .inr (.inl rfl)

theorem command_of_mayComplete {call : NativeCall} (h : call.mayComplete = true) :
    command call = ⟨call.id, .write (payload call)⟩ := by
  cases call with
  | write | writev => rfl
  | _ => cases h

theorem checkCall_step (n : NativePort) (call : NativeCall) :
    Staged call (n.checkCall call) ∧
      CallStep call n (.check call) { n with call := some (n.checkCall call) } (n.checkCall call) [] := by
  rcases checkCall_cases n call with ⟨error, h⟩ | h | ⟨hmay, -, h | h⟩ <;> rw [h]
  · exact ⟨.thrown, .refused .invalid rfl rfl⟩
  · exact ⟨.enqueue (.inl rfl), .goes rfl rfl rfl rfl rfl rfl⟩
  · refine ⟨.recheck hmay, .goes ?_ rfl rfl rfl rfl rfl⟩
    show bytes (payload call) = atoms (command call)
    rw [command_of_mayComplete hmay]
    rfl
  · refine ⟨.ready hmay, .goes ?_ rfl rfl rfl rfl rfl⟩
    show bytes (payload call) = atoms (command call)
    rw [command_of_mayComplete hmay]
    rfl

theorem refused_of_failed {n : NativePort} {c : Command}
    (h : n.receiving = false ∨ maxPendingOps + readSlots ≤ n.channel.length) : Refused n (.send c) := by
  rcases h with hclosed | hfull
  · exact .closed hclosed
  · exact .full hfull

theorem CallGoes.step {n : NativePort} {call : NativeCall} {stage stage' : Call} (h : CallGoes n stage stage')
    (hstaged : Staged call stage) :
    Staged call stage' ∧ CallStep call n stage { n with call := some stage' } stage' [] := by
  cases h with
  | checked =>
    cases hstaged
    exact checkCall_step n call
  | stopped hstop | closed hstop => exact ⟨.thrown, .refused (.stopped hstop) rfl rfl⟩
  | rechecked =>
    cases hstaged with
    | recheck hmay => exact ⟨.ready hmay, .goes rfl rfl rfl rfl rfl rfl⟩
  | tries =>
    generalize hinline : true = inlined at hstaged
    cases hstaged with
    | ready hmay => exact ⟨.tryWrite hmay hinline.symm, .goes rfl rfl rfl rfl rfl rfl⟩
  | queues =>
    cases hstaged with
    | ready hmay => exact ⟨.enqueue (.inl (command_of_mayComplete hmay).symm), .goes rfl rfl rfl rfl rfl rfl⟩
  | waits =>
    cases hstaged with
    | tryWrite hmay => exact ⟨.enqueue (.inl (command_of_mayComplete hmay).symm), .goes rfl rfl rfl rfl rfl rfl⟩
  | reserves hstop hordered =>
    cases hstaged with
    | enqueue hsub => exact ⟨.reserve hsub (hsub.ordered.symm.trans hordered), .goes rfl rfl rfl rfl rfl rfl⟩
  | sends hstop hordered =>
    cases hstaged with
    | enqueue hsub => exact ⟨.send hsub, .goes rfl (by simp [Call.reserved, hordered]) rfl rfl rfl rfl⟩
  | undoes hordered hfailed =>
    cases hstaged with
    | send hsub =>
      refine ⟨.undo (hsub.ordered.symm.trans hordered), .refused (refused_of_failed hfailed) rfl ?_⟩
      simp [Call.reserved, hordered]
  | fails hordered hfailed =>
    exact ⟨.thrown, .refused (refused_of_failed hfailed) rfl (by simp [Call.reserved, hordered])⟩

theorem stepCall_step {n n' : NativePort} {call : NativeCall} {stage : Call} (h : Staged call stage) {writer : Io ℕ}
    {out : List Output} (hstep : n.stepCall stage writer = some (n', out)) :
    ∃ stage', n'.call = some stage' ∧ Staged call stage' ∧ CallStep call n stage n' stage' out := by
  cases stepCall_moves hstep with
  | goes hgoes => exact ⟨_, rfl, hgoes.step h⟩
  | wrote hcount =>
    cases h with
    | tryWrite hmay hinline =>
      exact ⟨_, rfl, .enqueue (.inr ⟨hmay, hinline, _, rfl⟩), .wrote rfl hinline hcount.le rfl (.inr ⟨_, rfl⟩)⟩
  | completed =>
    cases h with
    | tryWrite hmay hinline =>
      refine ⟨_, rfl, .completed hmay hinline, ?_⟩
      have hstep' : CallStep call n (.tryWrite call.id (payload call))
          { n with call := some (.returned .completed) } (.returned .completed)
          [.wrote ((payload call).take (payload call).length)] :=
        .wrote rfl hinline (le_refl _) (by rw [List.drop_length]; rfl) (.inl rfl)
      rwa [List.take_length] at hstep'
  | backlog hbacklog =>
    cases h with
    | reserve hsub hordered => exact ⟨_, rfl, .undo hordered, .refused (.backlog hbacklog) rfl rfl⟩
  | reserved =>
    cases h with
    | reserve hsub hordered => exact ⟨_, rfl, .send hsub, .reserved rfl (hsub.ordered.trans hordered)⟩
  | pushed =>
    cases h with
    | send hsub => exact ⟨_, rfl, .queued, .pushed rfl hsub⟩
  | undone => exact ⟨_, rfl, .thrown, .undone rfl⟩

theorem stepCall_pushed {n n' : NativePort} {stage : Call} {writer : Io ℕ} {out : List Output}
    (hstep : n.stepCall stage writer = some (n', out)) : stage.pushed = false := by
  cases stage with
  | returned answer => cases hstep
  | _ => rfl

theorem stepCall_tryWrite {n n' : NativePort} {stage : Call} {writer : Io ℕ} {out : List Output}
    (hstep : n.stepCall stage writer = some (n', out)) {id : ℕ} {data : Buffer}
    (htry : n'.call = some (.tryWrite id data)) : n'.pendingOps = 0 := by
  cases stepCall_moves hstep with
  | goes hgoes =>
    cases Option.some.inj htry
    generalize hstage' : Call.tryWrite id data = stage' at hgoes
    cases hgoes with
    | checked =>
      rename_i call
      rcases checkCall_cases n call with ⟨error, h⟩ | h | ⟨-, -, h | h⟩ <;> rw [h] at hstage' <;> cases hstage'
    | tries hidle => exact hidle
    | _ => cases hstage'
  | _ => cases htry

/-- A call hands its command over once it has seen that no stop was requested. -/
theorem stepCall_handing {n n' : NativePort} {stage : Call} {writer : Io ℕ} {out : List Output}
    (hstep : n.stepCall stage writer = some (n', out)) {c : Command}
    (hcall : n'.call = some (.reserve c) ∨ n'.call = some (.send c)) :
    (stage = .enqueue c ∧ n.stop = false ∨ stage = .reserve c) ∧ n'.channel = n.channel ∧ out = [] := by
  cases stepCall_moves hstep with
  | goes hgoes =>
    refine ⟨?_, rfl, rfl⟩
    cases hgoes with
    | checked =>
      rename_i call
      rcases checkCall_cases n call with ⟨error, h⟩ | h | ⟨-, -, h | h⟩ <;> rw [h] at hcall <;>
        rcases hcall with hcall | hcall <;> cases hcall
    | reserves hstop | sends hstop =>
      rcases hcall with hcall | hcall <;> cases hcall
      exact .inl ⟨rfl, hstop⟩
    | _ => rcases hcall with hcall | hcall <;> cases hcall
  | reserved =>
    rcases hcall with hcall | hcall <;> cases hcall
    exact ⟨.inr rfl, rfl, rfl⟩
  | _ => rcases hcall with hcall | hcall <;> cases hcall

theorem stepCall_sent {n n' : NativePort} {c : Command} {writer : Io ℕ} {out : List Output}
    (hstep : n.stepCall (.send c) writer = some (n', out)) (hcall : n'.call = some (.returned .queued)) :
    n.receiving = true := by
  cases stepCall_moves hstep with
  | pushed hreceiving => exact hreceiving
  | goes hgoes => cases hgoes <;> cases hcall

/-! ### Refusals -/

/-- A call backs out only where too many operations are on their way, or the channel does not take its command. -/
theorem stepCall_undo {n n' : NativePort} {stage : Call} {writer : Io ℕ} {out : List Output}
    (hstep : n.stepCall stage writer = some (n', out)) {error : Binding.SerialError}
    (hundo : n'.call = some (.undo error)) :
    (∃ c, stage = .reserve c ∧ maxPendingOps ≤ n.pendingOps) ∨
      ∃ c, stage = .send c ∧ (n.receiving = false ∨ maxPendingOps + readSlots ≤ n.channel.length) := by
  cases stepCall_moves hstep with
  | goes hgoes =>
    cases hgoes with
    | checked =>
      rename_i call
      rcases checkCall_cases n call with ⟨error', h⟩ | h | ⟨-, -, h | h⟩ <;> rw [h] at hundo <;> cases hundo
    | undoes hordered hfailed => exact .inr ⟨_, rfl, hfailed⟩
    | _ => cases hundo
  | backlog hbacklog => exact .inl ⟨_, rfl, hbacklog⟩
  | _ => cases hundo

/-- Where a call stands that has reserved nothing and tries no write. -/
def Call.early : Call → Bool
  | .check _ | .enqueue _ | .returned (.thrown _) => true
  | _ => false

theorem stepCall_early {n n' : NativePort} {stage : Call} {writer : Io ℕ} {out : List Output} (hstop : n.stop = true)
    (hearly : stage.early = true) (hstep : n.stepCall stage writer = some (n', out)) :
    (∃ stage', n'.call = some stage' ∧ stage'.early = true) ∧ n'.channel = n.channel := by
  cases stepCall_moves hstep with
  | goes hgoes =>
    refine ⟨⟨_, rfl, ?_⟩, rfl⟩
    cases hgoes with
    | checked =>
      rename_i call
      rcases checkCall_cases n call with ⟨error, h⟩ | h | ⟨-, hrunning, -⟩
      · rw [h]
        rfl
      · rw [h]
        rfl
      · exact absurd hstop (by rw [hrunning]; nofun)
    | closed => rfl
    | reserves hrunning | sends hrunning => exact absurd hstop (by rw [hrunning]; nofun)
    | _ => cases hearly
  | _ => cases hearly

end NodeSerialport.Native
