import Mathlib.Data.List.Count
import NodeSerialport.Native.Accounts
/-!
# What `pending_ops` counts

A client may call the native port as it likes; whatever the reactor does meanwhile, `pending_ops` counts the ordered
commands that are not done, and the one that a call has reserved.  A call that an accessor makes during the snapshot of
`writev` finds the port as a call before it does: the snapshot comes before everything `writev` does to the port.

* `NativePort.backlog` — the ordered commands that are not done;
* `Counted` — the invariant;
* `Call.counts` — what a call adds to `pending_ops`, wherever it stands.
-/

namespace NodeSerialport.Native

open Binding (NativeCall NativeEvent)
open Lib (Machine)

namespace NativePort

/-- The ordered commands in the channel, and those in the queue of the reactor. -/
def backlog (n : NativePort) : ℕ := n.channel.countP Command.ordered + n.reactor.commands.length

/-- What the call in progress has reserved. -/
def reserved (n : NativePort) : ℕ :=
  match n.call with
  | none => 0
  | some stage => stage.reserved

/-- A call has reserved its command, and has neither handed it over nor backed out. -/
def enqueuing (n : NativePort) : Bool :=
  match n.call with
  | some (.send _) | some (.undo _) => true
  | _ => false

/-- A call backs out. -/
def undoing (n : NativePort) : Bool :=
  match n.call with
  | some (.undo _) => true
  | _ => false

end NativePort

/-- The completion of an ordered command, which is one `pending_ops.fetch_sub` of the reactor. -/
def completions (n : NativePort) : Input → List NativeEvent
  | .reactor _ =>
    match n.reactor.pc with
    | .complete event => [event]
    | _ => []
  | _ => []

/-- What a call adds to `pending_ops`, wherever it stands. -/
def Call.counts (call : NativeCall) : Call → ℕ
  | .returned .queued => if ordered call then 1 else 0
  | stage => stage.reserved

variable {n n' : NativePort} {out : List Output}

theorem reserved_eq_zero (h : n.enqueuing = false) : n.reserved = 0 := by
  unfold NativePort.reserved
  unfold NativePort.enqueuing at h
  split
  · rfl
  · rename_i stage hcall
    rw [hcall] at h
    cases stage with
    | send | undo => cases h
    | _ => rfl

/-! ### What the reactor does -/

/-- The reactor does not touch the number of its ordered commands unless it completes one. -/
theorem Moves.backlog (h : Moves n n' out) (hpc : ∀ event, n.reactor.pc ≠ .complete event) :
    n'.backlog = n.backlog ∧ n'.pendingOps = n.pendingOps := by
  have hkept : ∀ {n'}, Kept n n' → n'.backlog = n.backlog ∧ n'.pendingOps = n.pendingOps := by
    intro n' k
    refine ⟨?_, k.pendingOps⟩
    rw [NativePort.backlog, NativePort.backlog, k.channel, k.commands]
  -- a command that is not ordered leaves the channel
  have htaken : ∀ {command : Command} {channel}, n.channel = command :: channel → command.ordered = false →
      channel.countP Command.ordered + n.reactor.commands.length = n.backlog := by
    intro command channel hchannel hordered
    rw [NativePort.backlog, hchannel, List.countP_cons_of_neg (by rw [hordered]; nofun)]
  cases h with
  | calm k => exact hkept k
  | refused k => exact hkept k
  | unpublished hat k => exact hkept k
  | published hat hevent k =>
    refine ⟨?_, k.pendingOps⟩
    rw [NativePort.backlog, NativePort.backlog, k.channel, k.commands]
    rfl
  | popped hat => exact absurd hat (hpc _)
  | busy hat hchannel hoperation =>
    refine ⟨htaken hchannel ?_, rfl⟩
    rw [Command.ordered, hoperation]
  | reading hat hchannel => exact ⟨htaken hchannel rfl, rfl⟩
  | credited hat hchannel => exact ⟨htaken hchannel rfl, rfl⟩
  | overdrawn hat hchannel => exact ⟨htaken hchannel rfl, rfl⟩
  | enlisted hat hchannel hordered =>
    rename_i command channel
    refine ⟨?_, rfl⟩
    rw [NativePort.backlog, NativePort.backlog, hchannel, List.countP_cons_of_pos hordered]
    show channel.countP Command.ordered + (n.reactor.commands ++ [command]).length = _
    rw [List.length_append, List.length_singleton]
    omega
  | _ => exact ⟨rfl, rfl⟩

/-- **The reactor gives back one operation for every command it completes**, and no other. -/
theorem stepReactor_backlog (h : Fits n) {input : ReactorInput} (hstep : n.stepReactor input = some (n', out)) :
    n'.backlog + (completions n (.reactor input)).length = n.backlog ∧
      n'.pendingOps = n.pendingOps - (completions n (.reactor input)).length := by
  by_cases hpc : ∃ event, n.reactor.pc = .complete event
  · obtain ⟨event, hpc⟩ := hpc
    obtain ⟨⟨command, rest, hcommands, -⟩, -, -⟩ := h.complete hpc
    have hone : completions n (.reactor input) = [event] := by
      unfold completions
      rw [hpc]
    unfold NativePort.stepReactor at hstep
    rw [hpc] at hstep
    cases input with
    | run =>
      cases hstep
      refine ⟨?_, by rw [hone]; rfl⟩
      rw [hone, NativePort.backlog, NativePort.backlog, hcommands]
      rfl
    | _ => cases hstep
  · have hnone : completions n (.reactor input) = [] := by
      unfold completions
      dsimp only
      split
      · rename_i event hat
        exact absurd ⟨event, hat⟩ hpc
      · rfl
    obtain ⟨hbacklog, hpending⟩ := (stepReactor_moves h hstep).1.backlog (fun event hat => hpc ⟨event, hat⟩)
    rw [hnone]
    exact ⟨hbacklog, hpending⟩

/-! ### What a call does -/

theorem counts_eq_reserved (call : NativeCall) {stage : Call} (h : stage.pushed = false) :
    stage.counts call = stage.reserved := by
  cases stage with
  | returned answer =>
    cases answer with
    | queued => cases h
    | _ => rfl
  | _ => rfl

theorem pushed_of_refuses {stage : Call} (h : stage.refuses = true) : stage.pushed = false := by
  cases stage with
  | returned answer =>
    cases answer with
    | queued => cases h
    | _ => rfl
  | _ => rfl

theorem counts_eq_zero {call : NativeCall} {stage : Call} (h : Staged call stage)
    (hnot : (∃ error, stage = .returned (.thrown error)) ∨ ordered call = false) : stage.counts call = 0 := by
  rcases hnot with ⟨error, rfl⟩ | hordered
  · rfl
  · cases h with
    | send hsubmits =>
      show (if _ then 1 else 0) = 0
      rw [hsubmits.ordered, hordered]
      rfl
    | undo hundo => exact absurd (hundo.symm.trans hordered) nofun
    | queued =>
      show (if _ then 1 else 0) = 0
      rw [hordered]
      rfl
    | _ => rfl

/-- **A step of a call** changes `pending_ops` by what the call then adds to it. -/
theorem CallStep.pendingOps {call : NativeCall} {stage stage' : Call} (h : CallStep call n stage n' stage' out)
    (hpushed : stage.pushed = false) (hpos : stage.reserved ≤ n.pendingOps) :
    n'.pendingOps + stage.counts call = n.pendingOps + stage'.counts call := by
  rw [counts_eq_reserved call hpushed]
  cases h with
  | goes hrest hreserved hrefuses hrefuses' hpushed' =>
    rw [counts_eq_reserved call hpushed', hreserved]
  | wrote hstage hinline hcount hrest hstage' =>
    obtain rfl := hstage
    rcases hstage' with rfl | ⟨c, rfl⟩ <;> rfl
  | reserved hstage hordered =>
    rename_i c
    obtain rfl := hstage
    have hone : (Call.send c).counts call = 1 := if_pos hordered
    rw [hone]
    rfl
  | pushed hstage hsubmits =>
    rename_i c
    obtain rfl := hstage
    show n.pendingOps + (if c.ordered then 1 else 0) = n.pendingOps + if ordered call then 1 else 0
    rw [hsubmits.ordered]
  | refused hrefused hrefuses hpending =>
    rw [counts_eq_reserved call (pushed_of_refuses hrefuses)]
    exact hpending
  | undone hstage =>
    obtain rfl := hstage
    exact Nat.sub_add_cancel hpos

/-- **A step of a call** keeps the count. -/
theorem CallStep.counted {call : NativeCall} {stage stage' : Call} (h : CallStep call n stage n' stage' out)
    (hcounted : n.pendingOps = n.backlog + stage.reserved) : n'.pendingOps = n'.backlog + stage'.reserved := by
  cases h with
  | goes hrest hreserved =>
    rw [hreserved]
    exact hcounted
  | wrote hstage hinline hcount hrest hstage' =>
    obtain rfl := hstage
    rcases hstage' with rfl | ⟨c, rfl⟩ <;> exact hcounted
  | reserved hstage hordered =>
    rename_i c
    obtain rfl := hstage
    have hone : (Call.send c).reserved = 1 := if_pos hordered
    rw [hone]
    exact congrArg (· + 1) hcounted
  | pushed hstage hsubmits =>
    rename_i c
    obtain rfl := hstage
    have hone : (Call.send c).reserved = if c.ordered then 1 else 0 := rfl
    rw [hone] at hcounted
    show n.pendingOps = (n.channel ++ [c]).countP Command.ordered + n.reactor.commands.length + 0
    rw [NativePort.backlog] at hcounted
    rw [List.countP_append, List.countP_singleton]
    omega
  | refused hrefused hrefuses hpending =>
    rename_i pendingOps
    have hbacklog : ({ n with pendingOps := pendingOps, call := some stage' } : NativePort).backlog = n.backlog := rfl
    rw [hbacklog]
    show pendingOps = _
    omega
  | undone hstage =>
    rename_i error
    obtain rfl := hstage
    have hone : (Call.undo error).reserved = 1 := rfl
    rw [hone] at hcounted
    show n.pendingOps - 1 = n.backlog + 0
    omega

/-- The limit, with the one operation that a call is about to give back. -/
def NativePort.limit (n : NativePort) : ℕ := maxPendingOps + if n.undoing then 1 else 0

theorem limit_ge (n : NativePort) : maxPendingOps ≤ n.limit := Nat.le_add_right _ _

theorem stepCall_bounded {stage : Call} {writer : Io ℕ} (hstage : n.call = some stage) (h : n.pendingOps ≤ n.limit)
    (hstep : n.stepCall stage writer = some (n', out)) : n'.pendingOps ≤ n'.limit := by
  have hlimit : n.limit = maxPendingOps + if n.undoing then 1 else 0 := rfl
  unfold NativePort.undoing at hlimit
  rw [hstage] at hlimit
  cases stepCall_moves hstep with
  | goes hgoes =>
    have heq : n.limit = maxPendingOps := by
      cases hgoes <;> exact hlimit
    exact (h.trans_eq heq).trans (limit_ge _)
  | wrote | completed | pushed => exact (h.trans_eq hlimit).trans (limit_ge _)
  | backlog => exact Nat.succ_le_succ (h.trans_eq hlimit)
  | reserved hroom => exact hroom
  | undone => exact Nat.sub_le_of_le_add (h.trans_eq hlimit)

/-! ### The invariant -/

/-- **`pending_ops` counts what it should**, whatever the client does. -/
structure Counted (n : NativePort) : Prop where
  fits : Fits n
  staged : ∀ stage, n.call = some stage → ∃ call, Staged call stage
  counted : n.pendingOps = n.backlog + n.reserved
  bounded : n.pendingOps ≤ n.limit

namespace Counted

theorem start : Counted {} := ⟨.start, nofun, rfl, Nat.zero_le _⟩

theorem same (h : Counted n) (hfits : Fits n') (hbacklog : n'.backlog = n.backlog) (hpending : n'.pendingOps = n.pendingOps)
    (hreserved : n'.reserved = n.reserved) (hstaged : ∀ stage, n'.call = some stage → ∃ call, Staged call stage)
    (hlimit : n.limit ≤ n'.limit) : Counted n' := by
  refine ⟨hfits, hstaged, ?_, ?_⟩
  · rw [hpending, hbacklog, hreserved]
    exact h.counted
  · rw [hpending]
    exact h.bounded.trans hlimit

theorem call_eq (h : Counted n) {stage : Call} (hcall : n.call = some stage) :
    n.pendingOps = n.backlog + stage.reserved := by
  rw [h.counted, NativePort.reserved, hcall]

theorem complete_pos (h : Counted n) {event : NativeEvent} (hpc : n.reactor.pc = .complete event) :
    0 < n.pendingOps := by
  obtain ⟨⟨command, rest, hcommands, -⟩, -, -⟩ := h.fits.complete hpc
  rw [h.counted, NativePort.backlog, hcommands, List.length_cons]
  omega

theorem undo_pos (h : Counted n) (hundo : n.undoing = true) : 0 < n.pendingOps := by
  unfold NativePort.undoing at hundo
  split at hundo
  · rename_i error hcall
    rw [h.call_eq hcall]
    exact Nat.succ_pos _
  · cases hundo

theorem reactor (h : Counted n) {input : ReactorInput} (hstep : n.stepReactor input = some (n', out)) :
    Counted n' ∧ n'.pendingOps + (completions n (.reactor input)).length = n.pendingOps := by
  obtain ⟨hmoves, hfits⟩ := stepReactor_moves h.fits hstep
  obtain ⟨hbacklog, hpending⟩ := stepReactor_backlog h.fits hstep
  have hcall := hmoves.apart.call
  have hreserved : n'.reserved = n.reserved := by rw [NativePort.reserved, NativePort.reserved, hcall]
  have hlimit : n'.limit = n.limit := by
    rw [NativePort.limit, NativePort.limit, NativePort.undoing, NativePort.undoing, hcall]
  have hcounted := h.counted
  have hbounded := h.bounded
  refine ⟨⟨hfits, ?_, ?_, ?_⟩, ?_⟩
  · rw [hcall]
    exact h.staged
  · rw [hreserved]
    omega
  · rw [hlimit]
    omega
  · omega

theorem advance (h : Counted n) {stage : Call} (hcall : n.call = some stage) {call : NativeCall} (hstaged : Staged call stage)
    {writer : Io ℕ} (hstep : n.stepCall stage writer = some (n', out)) :
    Counted n' ∧ ∃ stage', n'.call = some stage' ∧ Staged call stage' ∧
      n'.pendingOps + stage.counts call = n.pendingOps + stage'.counts call := by
  obtain ⟨stage', hcall', hstaged', hmove⟩ := stepCall_step hstaged hstep
  obtain ⟨hsame, -⟩ := stepCall_sameReactor hstep
  have hcounted := h.call_eq hcall
  refine ⟨⟨h.fits.sameReactor hsame, ?_, ?_, stepCall_bounded hcall h.bounded hstep⟩, stage', hcall', hstaged', ?_⟩
  · intro other hother
    rw [hcall'] at hother
    cases hother
    exact ⟨call, hstaged'⟩
  · rw [NativePort.reserved, hcall']
    exact hmove.counted hcounted
  · exact hmove.pendingOps (stepCall_pushed hstep) (by omega)

theorem step (h : Counted n) {i : Input} (hstep : native.step n i = some (n', out)) : Counted n' := by
  have hfits := h.fits.step hstep
  change n.step i = _ at hstep
  unfold NativePort.step at hstep
  cases i with
  | reactor input => exact (h.reactor hstep).1
  | advance writer =>
    dsimp only at hstep
    split at hstep
    · cases hstep
    · rename_i stage hcall
      obtain ⟨call, hstaged⟩ := h.staged _ hcall
      exact (h.advance hcall hstaged hstep).1
  | call call =>
    dsimp only at hstep
    split at hstep <;> cases hstep
    rename_i hnone
    have hcall : n.call = none := by simpa using hnone
    refine h.same hfits rfl rfl ?_ ?_ ?_
    · rw [NativePort.reserved, NativePort.reserved, hcall]
      rfl
    · rintro stage ⟨⟩
      exact ⟨call, .check⟩
    · rw [NativePort.limit, NativePort.limit, NativePort.undoing, NativePort.undoing, hcall]
  | returns =>
    dsimp only at hstep
    split at hstep <;> cases hstep
    rename_i answer hcall
    refine h.same hfits rfl rfl ?_ nofun ?_
    · rw [NativePort.reserved, NativePort.reserved, hcall]
      rfl
    · rw [NativePort.limit, NativePort.limit, NativePort.undoing, NativePort.undoing, hcall]
  | stop | teardown =>
    cases hstep
    exact h.same hfits rfl rfl rfl h.staged (le_refl _)
  | consume =>
    dsimp only at hstep
    split at hstep <;> cases hstep
    exact h.same hfits rfl rfl rfl h.staged (le_refl _)

theorem run {inputs : List Input} (hrun : native.run {} inputs = some (n, out)) : Counted n :=
  Machine.run_invariant Counted (fun _ _ _ _ h hstep => h.step hstep) start hrun

/-! ### What a call adds -/

/-- **While a call is in progress**, `pending_ops` falls by one for every completion, and rises by what the call adds. -/
theorem during (h : Counted n) {stage : Call} (hcall : n.call = some stage) {call : NativeCall} (hstaged : Staged call stage)
    {inputs : List Input} (hstays : .returns ∉ inputs) (hrun : native.run n inputs = some (n', out)) :
    ∃ stage', n'.call = some stage' ∧ Staged call stage' ∧
      n'.pendingOps + (native.collect completions n inputs).length + stage.counts call =
        n.pendingOps + stage'.counts call := by
  induction inputs generalizing n stage out with
  | nil =>
    cases hrun
    exact ⟨stage, hcall, hstaged, rfl⟩
  | cons i inputs ih =>
    obtain ⟨n₁, out₁, rest, hstep, hrest, rfl⟩ := Machine.run_cons_inv hrun
    rw [List.mem_cons, not_or] at hstays
    have hone : ∃ stage₁, n₁.call = some stage₁ ∧ Staged call stage₁ ∧
        n₁.pendingOps + (completions n i).length + stage.counts call = n.pendingOps + stage₁.counts call := by
      have hstep' := hstep
      change n.step i = _ at hstep'
      unfold NativePort.step at hstep'
      cases i with
      | reactor input =>
        have hcall' := (stepReactor_moves h.fits hstep').1.apart.call
        obtain ⟨-, hpending⟩ := h.reactor hstep'
        exact ⟨stage, hcall'.trans hcall, hstaged, by rw [hpending]⟩
      | advance writer =>
        dsimp only at hstep'
        rw [hcall] at hstep'
        obtain ⟨-, stage₁, hcall₁, hstaged₁, hpending⟩ := h.advance hcall hstaged hstep'
        exact ⟨stage₁, hcall₁, hstaged₁, hpending⟩
      | call other =>
        dsimp only at hstep'
        rw [hcall] at hstep'
        cases hstep'
      | returns => exact absurd rfl hstays.1
      | stop | teardown =>
        cases hstep'
        exact ⟨stage, hcall, hstaged, rfl⟩
      | consume =>
        dsimp only at hstep'
        split at hstep' <;> cases hstep'
        exact ⟨stage, hcall, hstaged, rfl⟩
    obtain ⟨stage₁, hcall₁, hstaged₁, hpending₁⟩ := hone
    obtain ⟨stage', hcall', hstaged', hpending'⟩ := ih (h.step hstep) hcall₁ hstaged₁ hstays.2 hrest
    refine ⟨stage', hcall', hstaged', ?_⟩
    rw [Machine.collect_cons hstep, List.length_append]
    omega

end Counted

/-! ### Main result -/

/-- **Admission accounting is exact for any client.**  Over every run of the native port:

* while the reactor runs and no call is between its reservation and the channel, `pending_ops` is the number of ordered
  commands in the channel and in the reactor's queue;
* where a call backs out or the reactor completes a command, there is an operation to give back;
* unless a call is backing out, at most 64 operations are counted;
* from the start of a call to its end, where it throws, and all along, where it is a read or a read credit, nothing but
  the completions of other commands changes `pending_ops`. -/
theorem admission_exact (inputs : List Input) (n : NativePort) (outputs : List Output)
    (hrun : native.run {} inputs = some (n, outputs)) :
    (n.reactor.pc.ended = false → n.enqueuing = false → n.pendingOps = n.backlog) ∧
    (n.undoing = true ∨ (∃ event, n.reactor.pc = .complete event) → 0 < n.pendingOps) ∧
    (n.undoing = false → n.pendingOps ≤ 64) ∧
    ∀ call more n' out, native.run n (.call call :: more) = some (n', out) → .returns ∉ more →
      (∃ error, n'.call = some (.returned (.thrown error))) ∨ ordered call = false →
      n'.pendingOps + (native.collect completions n (.call call :: more)).length = n.pendingOps := by
  have h := Counted.run hrun
  refine ⟨?_, ?_, ?_, ?_⟩
  · intro _ hidle
    rw [h.counted, reserved_eq_zero hidle]
    rfl
  · rintro (hundo | ⟨event, hpc⟩)
    · exact h.undo_pos hundo
    · exact h.complete_pos hpc
  · intro hundo
    have hbounded := h.bounded
    rw [NativePort.limit, hundo] at hbounded
    exact hbounded
  · intro call more n' out hmore hstays hnot
    obtain ⟨n₁, out₁, rest, hstep, hrest, rfl⟩ := Machine.run_cons_inv hmore
    have hstep' := hstep
    change n.step (.call call) = _ at hstep'
    unfold NativePort.step at hstep'
    dsimp only at hstep'
    split at hstep' <;> cases hstep'
    obtain ⟨stage', hcall', hstaged', hpending⟩ :=
      (h.step hstep).during rfl (Staged.check : Staged call (.check call)) hstays hrest
    have hzero : stage'.counts call = 0 := by
      refine counts_eq_zero hstaged' (hnot.imp_left ?_)
      rintro ⟨error, herror⟩
      exact ⟨error, Option.some.inj (hcall'.symm.trans herror)⟩
    rw [hzero] at hpending
    rw [Machine.collect_cons hstep]
    exact hpending

/-- A drain that waits for the reactor is counted; a read credit behind it, and a read of no bytes, are not. -/
theorem admission_exact_drain : ∃ n out n₁ out₁ n₂ out₂,
    native.run {} [.call (.request 1 .drain 0), .advance .pending, .advance .pending, .advance .pending,
      .advance .pending, .returns] = some (n, out) ∧ n.pendingOps = n.backlog ∧ n.backlog = 1 ∧
    native.run n [.call (.readCredit 100 5), .advance .pending, .advance .pending, .advance .pending] = some (n₁, out₁) ∧
    n₁.channel.length = 2 ∧ n₁.pendingOps = n.pendingOps ∧
    native.run n [.call (.read 2 0), .advance .pending] = some (n₂, out₂) ∧ n₂.pendingOps = n.pendingOps := by
  refine ⟨_, _, _, _, _, _, rfl, ?_, rfl, rfl, rfl, ?_, rfl, ?_⟩
  all_goals
    have h := admission_exact [.call (.request 1 .drain 0), .advance .pending, .advance .pending, .advance .pending,
      .advance .pending, .returns] _ _ rfl
  · exact h.1 rfl rfl
  · exact h.2.2.2 (.readCredit 100 5) [.advance .pending, .advance .pending, .advance .pending] _ _ rfl (by simp) (.inr rfl)
  · exact h.2.2.2 (.read 2 0) [.advance .pending] _ _ rfl (by simp) (.inl ⟨_, rfl⟩)

end NodeSerialport.Native
