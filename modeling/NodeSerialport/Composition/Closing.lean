import NodeSerialport.Binding.Lifecycle
import NodeSerialport.Composition.Drain
import NodeSerialport.Native.Shutdown
/-!
# A port that is told to stop settles everything

Once the stop flag is set, the reactor takes a bounded number of turns to its end.  It reports the end last, and there is
room for that event in the callback queue.  Where JavaScript has taken it, the port is finished: no request is left without
an answer, and `close` has its own.

* `System.turns` — the turns of the reactor;
* `Closing` — the invariant: what the end of the reactor leaves behind, on both sides;
* `closing_settles` — over every run.
-/

namespace NodeSerialport.Native

variable {n n' : NativePort} {out : List Output} {i : ReactorInput}

/-- The reactor has reported its end, where it had room for the event. -/
theorem stepReactor_announces (hroom : n.Room) (hstep : n.stepReactor i = some (n', out)) (hpc' : n'.reactor.pc.signals = 0) :
    n.reactor.pc.signals = 0 ∧ n'.callbacks = n.callbacks ∨
      ∃ event, event.closes = true ∧ n'.callbacks = n.callbacks ++ [event] := by
  have hedge := (stepReactor_follows hstep).1.edge
  cases hpc : n.reactor.pc with
  | released result =>
    cases i with
    | run =>
      simp only [NativePort.stepReactor, hpc, send_eq, if_pos hroom] at hstep
      cases hstep
      refine .inr ⟨.event (NativePort.closeEvent result), ?_, rfl⟩
      cases result <;> rfl
    | _ => simp [NativePort.stepReactor, hpc] at hstep
  | reported =>
    cases i with
    | run =>
      simp only [NativePort.stepReactor, hpc] at hstep
      cases hstep
      exact .inl ⟨rfl, rfl⟩
    | _ => simp [NativePort.stepReactor, hpc] at hstep
  | _ =>
    rw [hpc] at hedge
    cases hpc'' : n'.reactor.pc with
    | reported | closed =>
      rw [hpc''] at hedge
      cases hedge
    | _ =>
      rw [hpc''] at hpc'
      cases hpc'

theorem step_callbacks {i : Input} (hi : ∀ input, i ≠ .reactor input) (hconsume : i ≠ .consume)
    (hstep : native.step n i = some (n', out)) : n'.callbacks = n.callbacks := by
  change n.step i = some (n', out) at hstep
  unfold NativePort.step at hstep
  cases i with
  | reactor input => exact absurd rfl (hi input)
  | consume => exact absurd rfl hconsume
  | advance writer =>
    dsimp only at hstep
    split at hstep
    · cases hstep
    · exact (stepCall_sameReactor hstep).2.1
  | stop | teardown =>
    cases hstep
    rfl
  | call | returns =>
    dsimp only at hstep
    split at hstep <;> cases hstep
    rfl

end NodeSerialport.Native

namespace NodeSerialport.Binding

variable {c c' : Client}

theorem Client.finished_mono {i : Input} {out : List Output} (hstep : client.step c i = some (c', out))
    (hfinished : c.port.finished = true) : c'.port.finished = true := by
  have hkept {life : Life} (hlife : c'.port.life = life) (hsame : life.finished = c.port.finished) :
      c'.port.finished = true := by
    have hfinished' : c'.port.finished = life.finished := congrArg Life.finished hlife
    rw [hfinished', hsame, hfinished]
  cases Client.step_lifeStep hstep with
  | kept hk => exact hkept hk.life rfl
  | opened hkind hclosing life => exact hkept life rfl
  | finished hkind life => exact congrArg Life.finished life
  | closed hopen hclosing life => exact hkept life rfl
  | canceled life => exact hkept life rfl
  | released hclosers life => exact hkept life rfl

theorem Client.finished_result (h : c.port.finished = true → (c.results.lookup 0).isSome = true) {i : Input} {out : List Output}
    (hstep : client.step c i = some (c', out)) (hfinished : c'.port.finished = true) : (c'.results.lookup 0).isSome = true := by
  by_cases hbefore : c.port.finished = true
  · obtain ⟨result, hresult⟩ := Option.isSome_iff_exists.1 (h hbefore)
    have hkept : c'.result (.promise 0) = some result := Client.step_result (i := i) hstep hresult
    exact Option.isSome_iff_exists.2 ⟨result, hkept⟩
  · have hno {life : Life} (hlife : c'.port.life = life) (hsame : life.finished = c.port.finished) : False := by
      have hfinished' : c'.port.finished = life.finished := congrArg Life.finished hlife
      exact hbefore (hsame ▸ hfinished' ▸ hfinished)
    cases Client.step_lifeStep hstep with
    | kept hk => exact (hno hk.life rfl).elim
    | opened hkind hclosing life => exact (hno life rfl).elim
    | closed hopen hclosing life => exact (hno life rfl).elim
    | canceled life => exact (hno life rfl).elim
    | released hclosers life => exact (hno life rfl).elim
    | @finished event _ hkind life =>
      change c.step (.callback (.event event)) = some (c', out) at hstep
      cases Client.step_runs hstep with
      | callback =>
        show ((c._event event).1.results.lookup 0).isSome = true
        unfold Client._event
        rw [hkind]
        simp only [Client._finishClose, if_neg hbefore]
        rw [Option.isSome_iff_ne_none, ne_eq, List.lookup_eq_none_iff]
        intro hnone
        have hzero := hnone (0, .ok none) (List.mem_append_right _ (List.mem_singleton_self _))
        simp at hzero

end NodeSerialport.Binding

namespace NodeSerialport.Composition

open Lib (Machine)
open Binding (Client Promised acceptances settlements client)
open Native (NativePort CallbackEvent ReactorInput)

variable {s s' : System} {outputs out : List Output}

/-- The turns of the reactor. -/
def System.turns (s : System) : Input → List ReactorInput
  | .native i => s.native.turns i
  | _ => []

/-- **Every turn uses up one**, once the stop flag is set. -/
theorem system_rank (hstop : s.native.stop = true) {i : Input} (hstep : system.step s i = some (s', out)) :
    s'.native.stop = true ∧ (s.turns i).length + s'.native.reactor.pc.rank ≤ s.native.reactor.pc.rank := by
  have henter {n : NativePort} (hreactor : n.reactor = s.native.reactor) (hset : n.stop = true) (js : Client)
      (jsOut : List Binding.Output) : (enter n js jsOut).stop = true ∧
        0 + (enter n js jsOut).reactor.pc.rank ≤ s.native.reactor.pc.rank := by
    refine ⟨(enter_entered n js jsOut).stop hset, ?_⟩
    rw [(enter_entered n js jsOut).reactor, hreactor]
    exact Nat.le_of_eq (Nat.zero_add _)
  cases system_step hstep with
  | js hi hjs => exact henter rfl hstop _ _
  | native hi hn => exact Native.step_rank hstop hn
  | answer hcall hcalling hjs => exact henter (n := { s.native with call := none }) rfl hstop _ _
  | callback hcallbacks hjs =>
    rename_i allocate event callbacks js jsOut
    exact henter (n := { s.native with callbacks := callbacks }) rfl hstop _ _

/-- **What the end of the reactor leaves behind**, on both sides. -/
structure Closing (outputs : List Output) (s : System) : Prop where
  freed : Native.Freed s.native
  announced : s.native.reactor.pc.signals = 0 →
    s.js.port.finished = true ∨ ∃ event ∈ s.native.callbacks, event.closes = true
  pending : s.js.port.finished = true → s.js.port.pending = []
  result : s.js.port.finished = true → (s.js.results.lookup 0).isSome = true
  promised : Promised (jsOutputs outputs) s.js

namespace Closing

theorem start (path : String) (nextId : ℕ) : Closing [] (System.new path nextId) :=
  ⟨.start, nofun, fun _ => rfl, nofun, .start rfl⟩

theorem js (h : Closing outputs s) {i : Binding.Input} {js : Client} {jsOut : List Binding.Output}
    (hjs : client.step s.js i = some (js, jsOut))
    (hrejects : s.js.port.finished = true → ∀ answer, i = .answer answer → ∃ error, answer = .thrown error) {n : NativePort}
    (hn : Native.Freed n)
    (hannounced : n.reactor.pc.signals = 0 → js.port.finished = true ∨ ∃ event ∈ n.callbacks, event.closes = true)
    {out : List Output} (hout : jsOutputs out = jsOut) : Closing (outputs ++ out) ⟨js, enter n js jsOut⟩ := by
  refine ⟨⟨hn.session, hn.receiving⟩, hannounced, ?_, Client.finished_result h.result hjs, ?_⟩
  · have hfinished : Binding.Finished [] s.js := ⟨fun ⟨_, hmem, _⟩ => (nomatch hmem), h.pending⟩
    have hrejects' : Binding.RejectsAfterClose [] [] s.js i := hrejects
    exact (hfinished.step hrejects' hjs).pending
  · rw [jsOutputs_append, hout]
    exact h.promised.step hjs

/-- **Every step keeps it.** -/
theorem step (h : Closing outputs s) (hl : Linked s) (hb : Bounded s) (hteardown : s.native.teardown = false) {i : Input}
    (hstep : system.step s i = some (s', out)) : Closing (outputs ++ out) s' := by
  have hstays {js : Client} (hmono : s.js.port.finished = true → js.port.finished = true)
      (hpc : s.native.reactor.pc.signals = 0) : js.port.finished = true ∨ ∃ event ∈ s.native.callbacks, event.closes = true :=
    (h.announced hpc).imp hmono id
  cases system_step hstep with
  | js hi hjs =>
    refine h.js hjs ?_ h.freed (hstays (Client.finished_mono hjs)) (jsOutputs_js _)
    rintro - answer rfl
    cases hi
  | answer hcall hcalling hjs =>
    refine h.js hjs ?_ (n := { s.native with call := none }) ⟨h.freed.session, h.freed.receiving⟩
      (hstays (Client.finished_mono hjs)) (jsOutputs_js _)
    intro hfinished answer hi
    obtain rfl := Binding.Input.answer.inj hi
    have hearly := (hb.closed hfinished).2 _ hcall
    rename_i answer _ _ _ _
    cases answer with
    | thrown error => exact ⟨error, rfl⟩
    | _ => cases hearly
  | callback hcallbacks hjs =>
    rename_i allocate event callbacks js jsOut
    refine h.js hjs (fun _ answer hi => nomatch hi) (n := { s.native with callbacks := callbacks })
      ⟨h.freed.session, h.freed.receiving⟩ (fun hpc => ?_) ?_
    · rcases h.announced hpc with hfinished | ⟨closing, hmem, hcloses⟩
      · exact .inl (Client.finished_mono hjs hfinished)
      · rw [hcallbacks] at hmem
        rcases List.mem_cons.1 hmem with rfl | hmem
        · -- JavaScript takes the close event
          refine .inl ?_
          have hfinished : Binding.Finished [] s.js := ⟨fun ⟨_, hmem, _⟩ => (nomatch hmem), h.pending⟩
          have hrejects : Binding.RejectsAfterClose [] [] s.js (.callback (closing.callback allocate)) :=
            fun _ _ hi => nomatch hi
          cases closing with
          | event nativeEvent =>
            exact (hfinished.step hrejects hjs).finished ⟨nativeEvent, List.mem_singleton_self _, beq_iff_eq.1 hcloses⟩
          | _ => cases hcloses
        · exact .inr ⟨closing, hmem, hcloses⟩
    · rw [jsOutputs_append, completions_js, jsOutputs_js]
      rfl
  | native hi hn =>
    rename_i i n nOut
    refine ⟨h.freed.step hn, fun hpc => ?_, h.pending, h.result, ?_⟩
    · have hsame (hcallbacks : n.callbacks = s.native.callbacks) (hsignals : s.native.reactor.pc.signals = 0) :
          s.js.port.finished = true ∨ ∃ event ∈ n.callbacks, event.closes = true := hcallbacks ▸ h.announced hsignals
      by_cases hreactor : ∃ input, i = .reactor input
      · obtain ⟨input, rfl⟩ := hreactor
        rcases Native.stepReactor_announces (hl.room hteardown) hn hpc with ⟨hsignals, hcallbacks⟩ | ⟨event, hcloses, hcallbacks⟩
        · exact hsame hcallbacks hsignals
        · exact .inr ⟨event, hcallbacks ▸ List.mem_append_right _ (List.mem_singleton_self _), hcloses⟩
      · have hother := not_exists.1 hreactor
        have hconsume : i ≠ .consume := by
          rintro rfl
          cases hi
        have hreactor := (Native.step_sameReactor hother hn).1.reactor
        exact hsame (Native.step_callbacks hother hconsume hn) (hreactor ▸ hpc)
    · rw [jsOutputs_append, jsOutputs_native, List.append_nil]
      exact h.promised

/-- **Every reachable state.** -/
theorem run {path : String} {nextId : ℕ} (hnextId : Binding.BindingPort.InRange nextId) {inputs : List Input}
    (hrun : system.run (System.new path nextId) inputs = some (s, outputs)) (hteardown : s.native.teardown = false) :
    Closing outputs s := by
  have hP := Machine.run_rule_all (fun inputs outputs (s : System) =>
    system.run (System.new path nextId) inputs = some (s, outputs) ∧ Attuned s ∧
      (s.native.teardown = false → Closing outputs s)) ?_ ?_ hrun
  · exact hP.2.2 hteardown
  · exact ⟨rfl, .start path hnextId, fun _ => .start path nextId⟩
  · rintro inputs outputs s i s' out ⟨hrun, hattuned, h⟩ hstep
    refine ⟨Machine.run_append hrun (Machine.run_singleton hstep), hattuned.step hstep, fun hteardown' => ?_⟩
    have hteardown := step_teardown hattuned hstep hteardown'
    obtain ⟨hlinked, hbounded, -⟩ := Bounded.run hnextId hrun hteardown
    exact (h hteardown).step hlinked hbounded hteardown hstep

end Closing

/-- **A port that is told to stop settles everything.**  Over every run of a port and its native side, as long as the
callback queue is not torn down: from any state with the stop flag set, the reactor takes fifteen turns at most; once it
took them all, it is closed and the device is released; and once JavaScript has taken all its callbacks then, the port is
finished, every operation that was accepted is settled, once, and so is the promise of `close`. -/
theorem closing_settles (path : String) (nextId : ℕ) (hnextId : Binding.BindingPort.InRange nextId) (before : List Input)
    (s : System) (out : List Output) (hrun : system.run (System.new path nextId) before = some (s, out))
    (hstop : s.native.stop = true) (after : List Input) (s' : System) (out' : List Output)
    (hrun' : system.run s after = some (s', out')) (hteardown : s'.native.teardown = false) :
    (system.collect System.turns s after).length + s'.native.reactor.pc.rank ≤ 15 ∧
      (s'.native.reactor.pc.rank = 0 → s'.native.session = false ∧ (s'.native.callbacks = [] →
        s'.js.port.finished = true ∧ s'.js.port.pending = [] ∧ (s'.js.results.lookup 0).isSome = true ∧
        ((settlements (jsOutputs (out ++ out'))).map Prod.fst).Nodup ∧
        ((acceptances (jsOutputs (out ++ out'))).map fun e => e.2.promise).Perm
          ((settlements (jsOutputs (out ++ out'))).map Prod.fst))) := by
  have hclosing : Closing (out ++ out') s' := .run hnextId (Machine.run_append hrun hrun') hteardown
  have hrank := Machine.run_rank (fun s : System => s.native.reactor.pc.rank) System.turns (fun s => s.native.stop = true)
    (fun _ _ _ _ hstop hstep => system_rank hstop hstep) hstop hrun'
  refine ⟨hrank.2.trans (Native.Pc.rank_le _), fun hzero => ?_⟩
  have hpc := Native.Pc.rank_zero.1 hzero
  refine ⟨hclosing.freed.session (hpc ▸ rfl), fun hcallbacks => ?_⟩
  have hfinished : s'.js.port.finished = true := by
    rcases hclosing.announced (hpc ▸ rfl) with hfinished | ⟨event, hmem, -⟩
    · exact hfinished
    · rw [hcallbacks] at hmem
      cases hmem
  have hpending := hclosing.pending hfinished
  have hsplit := hclosing.promised.split
  rw [hpending, List.map_nil, List.append_nil] at hsplit
  exact ⟨hfinished, hpending, hclosing.result hfinished, hsplit.nodup_iff.1 hclosing.promised.nodup, hsplit⟩

/-- A port is closed while a request is on its way. -/
def closeEarly : List Input :=
  [.native (.reactor (.opened (.ok ()))), .native (.reactor .run), .callback (fun _ => .ok 0), .js (.invoke (.control .flush 0)),
    .native (.advance .pending), .native (.advance .pending), .native (.advance .pending), .native (.advance .pending),
    .answer, .js (.invoke .close)]

theorem closing_settles_early : ∃ s out s' out', system.run (System.new "/dev/ttyS0" 1) closeEarly = some (s, out) ∧
    s.js.port.pending.length = 1 ∧ system.run s [.native (.reactor .run), .native (.reactor .run), .native (.reactor .run),
      .native (.reactor .run), .native (.reactor .run), .callback (fun _ => .ok 0)] = some (s', out') ∧
    s'.native.session = false ∧ s'.js.port.pending = [] ∧ (s'.js.results.lookup 0).isSome = true := by
  obtain ⟨s, out, s', out', hrun, hpending, hstop, hrun', hteardown, hrank, hcallbacks⟩ :
      ∃ s out s' out', system.run (System.new "/dev/ttyS0" 1) closeEarly = some (s, out) ∧ s.js.port.pending.length = 1 ∧
        s.native.stop = true ∧ system.run s [.native (.reactor .run), .native (.reactor .run), .native (.reactor .run),
          .native (.reactor .run), .native (.reactor .run), .callback (fun _ => .ok 0)] = some (s', out') ∧
        s'.native.teardown = false ∧ s'.native.reactor.pc.rank = 0 ∧ s'.native.callbacks = [] :=
    ⟨_, _, _, _, rfl, rfl, rfl, rfl, rfl, rfl, rfl⟩
  obtain ⟨-, hclosed⟩ := closing_settles "/dev/ttyS0" 1 ⟨by decide, by decide⟩ closeEarly s out hrun hstop _ s' out' hrun'
    hteardown
  obtain ⟨hsession, hsettled⟩ := hclosed hrank
  obtain ⟨-, hnone, hresult, -⟩ := hsettled hcallbacks
  exact ⟨s, out, s', out', hrun, hpending, hrun', hsession, hnone, hresult⟩

end NodeSerialport.Composition
