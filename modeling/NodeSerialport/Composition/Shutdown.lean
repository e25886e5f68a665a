import NodeSerialport.Binding.Lifecycle
import NodeSerialport.Composition.Records
/-!
# Shutting a port down

No event follows the close event, so a port keeps its native handle until its closure is requested.  `cancelOpen` leaves
`isOpen` as it is: where the open event came before it, the port is reported open while it shuts down, and `close` is
rejected.

* `Ending` — the invariant;
* `Requested` — `close` or `cancelOpen` asked for the closure;
* `Reported` — what `isOpen` says of a port;
* `reported_iff` — over every run.
-/

namespace NodeSerialport.Composition

open Lib (Machine)
open Binding (Client)
open Native (NativePort)

variable {s s' : System}

/-- **Nothing follows the close event.** -/
structure Ending (s : System) : Prop where
  attuned : Attuned s
  queue : Native.QueueFits s.native
  finished : s.js.port.finished = true → s.native.callbacks = [] ∧ s.native.reactor.pc.signals = 0
  handled : s.js.Handled

namespace Ending

theorem start (path : String) {nextId : ℕ} (h : Binding.BindingPort.InRange nextId) : Ending (System.new path nextId) :=
  ⟨.start path h, .start, nofun, .start path nextId⟩

theorem js (h : Ending s) {i : Binding.Input} {js : Client} {out : List Binding.Output} {n : NativePort}
    (hattuned : Attuned ⟨js, n⟩) (hreactor : n.reactor = s.native.reactor) (hcallbacks : n.callbacks = s.native.callbacks)
    (hstep : Binding.client.step s.js i = some (js, out)) (hi : ∀ event, i ≠ .callback (.event event)) :
    Ending ⟨js, n⟩ := by
  have hlife := Client.step_lifeStep hstep
  refine ⟨hattuned, h.queue.same hreactor hcallbacks, ?_, h.handled.step hlife fun _ => hi⟩
  show js.port.finished = true → n.callbacks = [] ∧ n.reactor.pc.signals = 0
  have hfinished : js.port.finished = s.js.port.finished := by
    cases hlife with
    | kept hk => exact congrArg Binding.Life.finished hk.life
    | opened | finished => exact absurd rfl (hi _)
    | closed hopen hclosing life => exact congrArg Binding.Life.finished life
    | canceled life => exact congrArg Binding.Life.finished life
    | released hclosers life => exact congrArg Binding.Life.finished life
  rw [hfinished, hreactor, hcallbacks]
  exact h.finished

/-- **Every step keeps the invariant.** -/
theorem step (h : Ending s) {i : Input} {out : List Output} (hstep : system.step s i = some (s', out)) : Ending s' := by
  have hattuned := h.attuned.step hstep
  cases system_step hstep with
  | js hi hjs =>
    refine h.js hattuned rfl rfl hjs ?_
    rintro event rfl
    cases hi
  | answer hcall hcalling hjs => exact h.js hattuned rfl rfl hjs fun _ he => nomatch he
  | native hi hn =>
    cases native_nativeStep h.attuned.fits hi hn with
    | reactor hm =>
      exact ⟨hattuned, h.queue.moves hm h.attuned.fits, finished_moves hm h.attuned.fits h.finished, h.handled⟩
    | call hcall hstepCall =>
      obtain ⟨hsame, hcallbacks, -⟩ := Native.stepCall_sameReactor hstepCall
      refine ⟨hattuned, h.queue.same hsame.reactor hcallbacks, ?_, h.handled⟩
      rw [hsame.reactor, hcallbacks]
      exact h.finished
    | stop => exact ⟨hattuned, h.queue.same rfl rfl, h.finished, h.handled⟩
    | teardown => exact ⟨hattuned, h.queue.same rfl rfl, h.finished, h.handled⟩
  | callback hcallbacks hjs =>
    rename_i allocate event callbacks js out
    have hlife := Client.step_lifeStep hjs
    have hunfinished : s.js.port.finished = false := by
      by_contra hfinished
      have hnil := (h.finished (by simpa using hfinished)).1
      rw [hcallbacks] at hnil
      cases hnil
    refine ⟨hattuned, h.queue.tail hcallbacks rfl rfl, ?_, h.handled.step hlife fun hf => ?_⟩
    · show js.port.finished = true → callbacks = [] ∧ s.native.reactor.pc.signals = 0
      intro hfinished
      -- only the close event finishes a port, and it is the last
      have hcloses : event.closes = true := by
        generalize hinput : Binding.Input.callback (event.callback allocate) = input at hlife
        have hno : ∀ {life : Binding.Life}, js.port.life = life → life.finished = s.js.port.finished →
            event.closes = true := by
          intro life hlife' hsame
          have hjs' : js.port.finished = life.finished := congrArg Binding.Life.finished hlife'
          rw [hjs', hsame, hunfinished] at hfinished
          cases hfinished
        cases hlife with
        | kept hk => exact hno hk.life rfl
        | opened hkind hclosing life => exact hno life rfl
        | finished hkind life =>
          obtain rfl := Tracked.callback_event (Binding.Input.callback.inj hinput)
          exact beq_iff_eq.2 hkind
        | closed hopen hclosing life => exact hno life rfl
        | canceled life => exact hno life rfl
        | released hclosers life => exact hno life rfl
      exact h.queue.last [] event callbacks hcallbacks hcloses
    · rw [hunfinished] at hf
      cases hf

end Ending

/-! ### What a port reports -/

/-- The closure was requested: by `cancelOpen`, or by a `close` of an open port. -/
def Requested (path : String) (nextId : ℕ) (inputs : List Input) : Prop :=
  ∃ pre i post s outputs, inputs = pre ++ i :: post ∧ system.run (System.new path nextId) pre = some (s, outputs) ∧
    (i = .js (.invoke .cancelOpen) ∨ i = .js (.invoke .close) ∧ s.js.port.isOpen = true)

/-- **What `isOpen` says of a port.** -/
structure Reported (requested : Prop) (s : System) : Prop where
  exclusive : s.js.port.isOpen = true → s.js.port.closing = false
  accepts : s.js.port.isOpen = true → ∀ c out, Binding.client.step s.js (.invoke .close) = some (c, out) →
    out = [.invoked s.js.promises, .stopped]
  closed : requested → s.js.port.finished = true → s.js.port.isOpen = false
  handle : s.js.port.isOpen = true → s.js.port.closing = false → s.js.port.native = true

theorem step_closing {i : Input} {out : List Output} (hstep : system.step s i = some (s', out))
    (h : s.js.port.closing = true) : s'.js.port.closing = true := by
  cases system_step hstep with
  | js hi hjs => exact (Client.step_flagStep hjs).closing h
  | native hi hn => exact h
  | answer hcall hcalling hjs => exact (Client.step_flagStep hjs).closing h
  | callback hcallbacks hjs => exact (Client.step_flagStep hjs).closing h

theorem step_requested {i : Input} {out : List Output} (hstep : system.step s i = some (s', out))
    (h : i = .js (.invoke .cancelOpen) ∨ i = .js (.invoke .close) ∧ s.js.port.isOpen = true) :
    s'.js.port.closing = true := by
  rcases h with rfl | ⟨rfl, hopen⟩
  · cases system_step hstep with
    | js hi hjs => exact congrArg Binding.Life.closing (Client.cancelOpen_life hjs)
  · cases system_step hstep with
    | js hi hjs =>
      cases Client.step_lifeStep hjs with
      | kept hk hcancel hclose =>
        rcases hclose rfl with hno | hclosing
        · rw [hopen] at hno
          cases hno
        · exact Eq.trans (congrArg Binding.Life.closing hk.life) hclosing
      | closed hopen' hclosing life => exact congrArg Binding.Life.closing life

theorem Requested.snoc {path : String} {nextId : ℕ} {inputs : List Input} {i : Input} {outputs : List Output}
    (h : Requested path nextId (inputs ++ [i])) (hrun : system.run (System.new path nextId) inputs = some (s, outputs)) :
    Requested path nextId inputs ∨ (i = .js (.invoke .cancelOpen) ∨ i = .js (.invoke .close) ∧ s.js.port.isOpen = true) := by
  obtain ⟨pre, j, post, s₁, out, hsplit, hpre, hj⟩ := h
  rcases List.eq_nil_or_concat post with rfl | ⟨post, k, rfl⟩
  · obtain ⟨rfl, hi⟩ := List.append_inj' hsplit rfl
    obtain rfl : i = j := by simpa using hi
    rw [hrun] at hpre
    cases hpre
    exact .inr hj
  · rw [List.concat_eq_append, ← List.cons_append, ← List.append_assoc] at hsplit
    obtain ⟨rfl, -⟩ := List.append_inj' hsplit rfl
    exact .inl ⟨pre, j, post, s₁, out, rfl, hpre, hj⟩

theorem Ending.run {path : String} {nextId : ℕ} (hnextId : Binding.BindingPort.InRange nextId) {inputs : List Input}
    {outputs : List Output} (hrun : system.run (System.new path nextId) inputs = some (s, outputs)) :
    Ending s ∧ (Requested path nextId inputs → s.js.port.closing = true) := by
  have hP := Machine.run_rule_all (fun inputs outputs (s : System) =>
    system.run (System.new path nextId) inputs = some (s, outputs) ∧ Ending s ∧
      (Requested path nextId inputs → s.js.port.closing = true)) ?_ ?_ hrun
  · exact hP.2
  · refine ⟨rfl, .start path hnextId, ?_⟩
    rintro ⟨pre, i, post, s, outputs, hsplit, -⟩
    cases pre <;> cases hsplit
  · rintro inputs outputs s i s' out ⟨hrun, h, hclosing⟩ hstep
    refine ⟨Machine.run_append hrun (Machine.run_singleton hstep), h.step hstep, fun hrequested => ?_⟩
    rcases hrequested.snoc hrun with hbefore | hi
    · exact step_closing hstep (hclosing hbefore)
    · exact step_requested hstep hi

theorem exclusive_run {path : String} {nextId : ℕ} {inputs : List Input} {outputs : List Output}
    (hrun : system.run (System.new path nextId) inputs = some (s, outputs))
    (hcancel : system.Along (fun _ _ s i => i = .js (.invoke .cancelOpen) → s.js.port.isOpen = false)
      (System.new path nextId) inputs) : s.js.port.isOpen = true → s.js.port.closing = false := by
  refine Machine.run_rule (fun _ _ (s : System) => s.js.port.isOpen = true → s.js.port.closing = false) (fun _ => rfl) ?_
    hcancel hrun
  intro inputs outputs s i s' out ih hi hstep
  cases system_step hstep with
  | js hjsInput hjs =>
    refine Client.exclusive_step ih (Client.step_lifeStep hjs) ?_
    rintro rfl
    exact hi rfl
  | native hi hn => exact ih
  | answer hcall hcalling hjs => exact Client.exclusive_step ih (Client.step_lifeStep hjs) nofun
  | callback hcallbacks hjs => exact Client.exclusive_step ih (Client.step_lifeStep hjs) nofun

/-- **A port that shuts down is never reported open**, in any state of a run, if and only if `cancelOpen` is called on no
port that is open. -/
theorem reported_iff (path : String) (nextId : ℕ) (hnextId : Binding.BindingPort.InRange nextId) (inputs : List Input)
    (s : System) (outputs : List Output) (hrun : system.run (System.new path nextId) inputs = some (s, outputs)) :
    (∀ pre post s' out, inputs = pre ++ post → system.run (System.new path nextId) pre = some (s', out) →
      Reported (Requested path nextId pre) s') ↔
    system.Along (fun _ _ s i => i = .js (.invoke .cancelOpen) → s.js.port.isOpen = false) (System.new path nextId)
      inputs := by
  constructor
  · rintro h pre i post rfl s₁ out hpre rfl
    -- the step after which the port shuts down
    rw [← List.singleton_append, ← List.append_assoc] at hrun
    obtain ⟨s₂, out₂, rest₂, hrun₂, -⟩ := Machine.run_append_inv hrun
    obtain ⟨s₃, out₃, rest₃, hpre', hlast, -⟩ := Machine.run_append_inv hrun₂
    rw [hpre] at hpre'
    cases hpre'
    obtain ⟨s₄, out₄, rest₄, hstep, hnil, -⟩ := Machine.run_cons_inv hlast
    cases hnil
    by_contra hclosed
    have hopen : s₁.js.port.isOpen = true := by simpa using hclosed
    have hreported := h (pre ++ [.js (.invoke .cancelOpen)]) post s₂ out₂ (by simp) hrun₂
    cases system_step hstep with
    | js hi hjs =>
      have hlife := Client.cancelOpen_life hjs
      have hopen' := hreported.exclusive (Eq.trans (congrArg Binding.Life.isOpen hlife) hopen)
      exact absurd (Eq.trans (congrArg Binding.Life.closing hlife).symm hopen') nofun
  · rintro hcancel pre post s' out rfl hpre
    obtain ⟨h, hrequested⟩ := Ending.run hnextId hpre
    have hexclusive := exclusive_run hpre hcancel.of_append
    have hhandle : s'.js.port.isOpen = true → s'.js.port.native = true := by
      intro hopen
      rcases h.handled.native (hexclusive hopen) with hn | ⟨-, hclosed⟩
      · exact hn
      · rw [hopen] at hclosed
        cases hclosed
    refine ⟨hexclusive, fun hopen c o hstep => ?_, fun hreq hfinished => ?_, fun hopen hclosing => hhandle hopen⟩
    · exact Client.close_accepted hopen (hexclusive hopen) (hhandle hopen) hstep
    · by_contra hopen
      have hclosing := hexclusive (by simpa using hopen)
      rw [hrequested hreq] at hclosing
      cases hclosing

/-- A port that is closed, and one whose opening is canceled in time. -/
theorem reported_closed : ∃ s outputs,
    system.run (System.new "/dev/ttyS0" 1) [.native (.reactor (.opened (.ok ()))), .native (.reactor .run),
      .callback (fun _ => .ok 0), .js (.invoke .close)] = some (s, outputs) ∧
    s.js.port.closing = true ∧ s.js.port.isOpen = false ∧
    Reported (Requested "/dev/ttyS0" 1 [.native (.reactor (.opened (.ok ()))), .native (.reactor .run),
      .callback (fun _ => .ok 0), .js (.invoke .close)]) s := by
  refine ⟨_, _, rfl, rfl, rfl, ?_⟩
  refine (reported_iff "/dev/ttyS0" 1 ⟨by decide, by decide⟩ [.native (.reactor (.opened (.ok ()))),
    .native (.reactor .run), .callback (fun _ => .ok 0), .js (.invoke .close)] _ _ rfl).2 ?_ _ [] _ _
    (List.append_nil _).symm rfl
  rintro pre i post hsplit s' out - rfl
  have hmem : Input.js (.invoke .cancelOpen) ∈ [Input.native (.reactor (.opened (.ok ()))), .native (.reactor .run),
      .callback (fun _ => .ok 0), .js (.invoke .close)] := by
    rw [hsplit]
    exact List.mem_append_right _ List.mem_cons_self
  simp at hmem

/-- A port that is canceled after its open event: it is open while it shuts down, rejects `close`, and is still open
after its close event. -/
theorem canceled_stays_open : ¬∀ (inputs : List Input) (s : System) (outputs : List Output),
    system.run (System.new "/dev/ttyS0" 1) inputs = some (s, outputs) →
    Reported (Requested "/dev/ttyS0" 1 inputs) s := by
  intro h
  have hreported := h [.native (.reactor (.opened (.ok ()))), .native (.reactor .run), .callback (fun _ => .ok 0),
    .js (.invoke .cancelOpen), .native (.reactor .run), .native (.reactor .run), .native (.reactor .run),
    .native (.reactor .run), .callback (fun _ => .ok 0)] _ _ rfl
  have hrequested : Requested "/dev/ttyS0" 1 [.native (.reactor (.opened (.ok ()))), .native (.reactor .run),
      .callback (fun _ => .ok 0), .js (.invoke .cancelOpen), .native (.reactor .run), .native (.reactor .run),
      .native (.reactor .run), .native (.reactor .run), .callback (fun _ => .ok 0)] :=
    ⟨[.native (.reactor (.opened (.ok ()))), .native (.reactor .run), .callback (fun _ => .ok 0)], _,
      [.native (.reactor .run), .native (.reactor .run), .native (.reactor .run), .native (.reactor .run),
        .callback (fun _ => .ok 0)], _, _, rfl, rfl, .inl rfl⟩
  have hclosed := hreported.closed hrequested rfl
  cases hclosed

end NodeSerialport.Composition
