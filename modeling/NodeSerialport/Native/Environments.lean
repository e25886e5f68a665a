import Mathlib.Data.List.Nodup
import NodeSerialport.Lib.Machine
/-!
# The sessions of an environment

One process runs several JavaScript environments, each on its own thread.  `register_cleanup` (`src/lib.rs`) keeps, for each
environment that opened a port, a registry of weak references to the sessions, and one cleanup hook that stops them when the
environment is torn down.  The pointer that names an environment may name another one later.

* `Control`, `Env`, `Process` — sessions, environments, and what they share;
* `Process.register` — `register_cleanup`;
* `Process.step`, `process` — the machine: a hook stops one session at a time, among the steps of all others;
* `Env.Tends` — how the sessions of an environment will be stopped;
* `Tended` — the invariant of the process, and `tended_step`;
* `sessions_tended` — over every run: a session is left running only while its environment has it in the way of its hook, and
  no hook stops a session of another environment.
-/

namespace NodeSerialport.Native

open Lib (Machine)

/-! ### The process -/

/-- `Control`, as the registries see it: its flag, and who holds it. -/
structure Control where
  stop : Bool := false
  /-- `NativePort`, or its constructor. -/
  port : Bool := true
  /-- The reactor, on a worker. -/
  worker : Bool := false
  deriving Repr

/-- `strong_count() != 0`. -/
def Control.alive (c : Control) : Bool := c.port || c.worker

/-- What a cleanup hook still does. -/
inductive Hook where
  | stopping (sessions : List ℕ)
  | removing
  deriving Repr

/-- An environment: its pointer, and a number that is never used again. -/
structure Env where
  serial : ℕ
  key : ℕ
  torn : Bool := false
  /-- The registries its cleanup hooks were installed with. -/
  hooks : List ℕ := []
  running : Option Hook := none
  deriving Repr

structure Process where
  controls : List Control := []
  /-- Weak references to the sessions. -/
  registries : List (List ℕ) := []
  /-- `ENVIRONMENTS`: a pointer, and its registry. -/
  environments : List (ℕ × ℕ) := []
  envs : List Env := []
  started : ℕ := 0
  deriving Repr

namespace Process

inductive Input where
  /-- An environment starts, at an unused pointer. -/
  | start (key : ℕ)
  /-- `NativePort::new`, up to `register_cleanup`; the hook may fail to install. -/
  | create (key : ℕ) (hooked : Bool)
  /-- The rest of `NativePort::new`: the worker may fail to start. -/
  | spawn (id : ℕ) (started : Bool)
  | close (id : ℕ)
  /-- `Drop for NativePort`. -/
  | finalize (id : ℕ)
  /-- The reactor drops `Completion`. -/
  | finish (id : ℕ)
  | teardown (key : ℕ)
  /-- A cleanup hook goes on. -/
  | hook (key : ℕ)
  | gone (key : ℕ)
  deriving Repr

/-- A hook stopped a session of its environment. -/
inductive Output where
  | stopped (serial id : ℕ)
  deriving Repr

/-- The environment with this pointer. -/
def env? (p : Process) (key : ℕ) : Option Env := p.envs.find? (·.key == key)

def setEnv (p : Process) (e : Env) : Process := { p with envs := p.envs.map fun e' => if e'.key = e.key then e else e' }

def setControl (p : Process) (id : ℕ) (c : Control) : Process := { p with controls := p.controls.set id c }

/-- `Weak::upgrade` succeeds. -/
def alive (p : Process) (id : ℕ) : Bool := p.controls[id]?.any Control.alive

/-- `registry.retain(alive)`, and the new session. -/
def enroll (p : Process) (registry id : ℕ) : Process :=
  { p with registries := p.registries.modify registry fun sessions => sessions.filter p.alive ++ [id] }

/-- `register_cleanup`, under the mutex of `ENVIRONMENTS`; `none` where the hook cannot be installed. -/
def register (p : Process) (e : Env) (id : ℕ) (hooked : Bool) : Option Process :=
  match p.environments.lookup e.key with
  | some registry => some (p.enroll registry id)
  | none =>
    if hooked then
      let registry := p.registries.length
      let p := { p with registries := p.registries ++ [[]], environments := p.environments ++ [(e.key, registry)] }
      some ((p.setEnv { e with hooks := e.hooks ++ [registry] }).enroll registry id)
    else none

/-- One step of the cleanup hooks of an environment, the last one first. -/
def stepHook (p : Process) (e : Env) : Option (Process × List Output) :=
  match e.running with
  | none =>
    match e.hooks.getLast? with
    | none => none
    | some registry =>
      let sessions := (p.registries[registry]?).getD []
      some (p.setEnv { e with hooks := e.hooks.dropLast, running := some (.stopping sessions) }, [])
  | some (.stopping []) => some (p.setEnv { e with running := some .removing }, [])
  | some (.stopping (id :: sessions)) =>
    let p' := p.setEnv { e with running := some (.stopping sessions) }
    match p.controls[id]? with
    | some c => if c.alive then some (p'.setControl id { c with stop := true }, [.stopped e.serial id]) else some (p', [])
    | none => some (p', [])
  | some .removing =>
    some ({ p with environments := p.environments.filter (·.1 != e.key) }.setEnv { e with running := none }, [])

def step (p : Process) : Input → Option (Process × List Output)
  | .start key =>
    if (p.env? key).isNone then
      some ({ p with envs := p.envs ++ [{ serial := p.started, key := key }], started := p.started + 1 }, [])
    else none
  | .create key hooked =>
    match p.env? key with
    | none => none
    | some e =>
      if e.torn then none
      else
        -- where it fails, the session is dropped
        let made := { p with controls := p.controls ++ [(⟨false, true, false⟩ : Control)] }.register e p.controls.length hooked
        some (made.getD { p with controls := p.controls ++ [(⟨false, false, false⟩ : Control)] }, [])
  | .spawn id started =>
    match p.controls[id]? with
    | none => none
    | some c =>
      if c.port && !c.worker && !c.stop then
        some (p.setControl id (if started then { c with worker := true } else { c with port := false }), [])
      else none
  | .close id =>
    match p.controls[id]? with
    | none => none
    | some c => if c.port then some (p.setControl id { c with stop := true }, []) else none
  | .finalize id =>
    match p.controls[id]? with
    | none => none
    | some c => if c.port then some (p.setControl id { c with stop := true, port := false }, []) else none
  | .finish id =>
    match p.controls[id]? with
    | none => none
    | some c => if c.worker then some (p.setControl id { c with stop := true, worker := false }, []) else none
  | .teardown key =>
    match p.env? key with
    | none => none
    | some e => if e.torn then none else some (p.setEnv { e with torn := true }, [])
  | .hook key =>
    match p.env? key with
    | none => none
    | some e => if e.torn then p.stepHook e else none
  | .gone key =>
    match p.env? key with
    | none => none
    | some e =>
      if e.torn && e.hooks.isEmpty && e.running.isNone then some ({ p with envs := p.envs.filter (·.key != key) }, []) else none

end Process

def process : Machine Process Process.Input Process.Output := ⟨Process.step⟩

/-! ### Who will stop a session -/

variable {p p' : Process} {e : Env} {born : List (ℕ × ℕ)} {id : ℕ}

/-- The session a step creates, with the number of its environment. -/
def Process.made (p : Process) : Process.Input → List (ℕ × ℕ)
  | .create key _ =>
    match p.env? key with
    | some e => if e.torn then [] else [(p.controls.length, e.serial)]
    | none => []
  | _ => []

/-- The session was dropped, or it is told to stop. -/
def Process.Halted (p : Process) (id : ℕ) : Prop := ∀ c, p.controls[id]? = some c → c.alive = true → c.stop = true

/-- **How the sessions of an environment will be stopped**: none runs, the hook is installed, or it runs and has the others
before it. -/
inductive Env.Tends (p : Process) (born : List (ℕ × ℕ)) (e : Env) : Prop
  | idle (hooks : e.hooks = []) (running : e.running = none) (entry : p.environments.lookup e.key = none)
      (halted : ∀ id, (id, e.serial) ∈ born → p.Halted id) : Env.Tends p born e
  | hooked {registry : ℕ} {sessions : List ℕ} (hooks : e.hooks = [registry]) (running : e.running = none)
      (entry : p.environments.lookup e.key = some registry) (enrolled : p.registries[registry]? = some sessions)
      (own : ∀ id ∈ sessions, (id, e.serial) ∈ born)
      (kept : ∀ id, (id, e.serial) ∈ born → id ∈ sessions ∨ p.Halted id) : Env.Tends p born e
  | stopping {sessions : List ℕ} (torn : e.torn = true) (hooks : e.hooks = []) (running : e.running = some (.stopping sessions))
      (own : ∀ id ∈ sessions, (id, e.serial) ∈ born)
      (kept : ∀ id, (id, e.serial) ∈ born → id ∈ sessions ∨ p.Halted id) : Env.Tends p born e
  | removing (torn : e.torn = true) (hooks : e.hooks = []) (running : e.running = some .removing)
      (halted : ∀ id, (id, e.serial) ∈ born → p.Halted id) : Env.Tends p born e

theorem Env.Tends.frame (h : e.Tends p born) {born' : List (ℕ × ℕ)}
    (hentry : p'.environments.lookup e.key = p.environments.lookup e.key)
    (hregistries : ∀ registry ∈ e.hooks, p'.registries[registry]? = p.registries[registry]?)
    (hhalted : ∀ id, (id, e.serial) ∈ born → p.Halted id → p'.Halted id)
    (hborn : ∀ id, (id, e.serial) ∈ born' ↔ (id, e.serial) ∈ born) : e.Tends p' born' := by
  cases h with
  | idle hooks running entry halted =>
    exact .idle hooks running (hentry.trans entry) fun id hid => hhalted id ((hborn id).1 hid) (halted id ((hborn id).1 hid))
  | hooked hooks running entry enrolled own kept =>
    refine .hooked hooks running (hentry.trans entry) ((hregistries _ (hooks ▸ List.mem_singleton_self _)).trans enrolled)
      (fun id hid => (hborn id).2 (own id hid)) fun id hid => ?_
    exact (kept id ((hborn id).1 hid)).imp_right (hhalted id ((hborn id).1 hid))
  | stopping torn hooks running own kept =>
    refine .stopping torn hooks running (fun id hid => (hborn id).2 (own id hid)) fun id hid => ?_
    exact (kept id ((hborn id).1 hid)).imp_right (hhalted id ((hborn id).1 hid))
  | removing torn hooks running halted =>
    exact .removing torn hooks running fun id hid => hhalted id ((hborn id).1 hid) (halted id ((hborn id).1 hid))

theorem Env.Tends.hook_lt (h : e.Tends p born) {registry : ℕ} (hmem : registry ∈ e.hooks) :
    registry < p.registries.length := by
  cases h with
  | hooked hooks _ _ enrolled =>
    rw [hooks, List.mem_singleton] at hmem
    rw [hmem]
    exact (List.getElem?_eq_some_iff.1 enrolled).1
  | _ hooks => simp_all

/-- **The invariant of the process.** -/
structure Tended (born : List (ℕ × ℕ)) (p : Process) : Prop where
  keys : (p.envs.map Env.key).Nodup
  serials : (p.envs.map Env.serial).Nodup
  started : ∀ e ∈ p.envs, e.serial < p.started
  tends : ∀ e ∈ p.envs, e.Tends p born
  entries : ∀ entry ∈ p.environments, ∃ e ∈ p.envs, e.key = entry.1
  apart : ∀ e ∈ p.envs, ∀ e' ∈ p.envs, ∀ registry ∈ e.hooks, registry ∈ e'.hooks → e = e'
  bounds : ∀ session ∈ born, session.1 < p.controls.length ∧ session.2 < p.started
  once : (born.map Prod.fst).Nodup
  gone : ∀ session ∈ born, (∃ e ∈ p.envs, e.serial = session.2) ∨ p.Halted session.1

theorem tended_start : Tended [] {} := by
  refine ⟨List.nodup_nil, List.nodup_nil, ?_, ?_, ?_, ?_, ?_, List.nodup_nil, ?_⟩ <;> nofun

theorem Process.env?_some {key : ℕ} (h : p.env? key = some e) : e ∈ p.envs ∧ e.key = key :=
  ⟨List.mem_of_find?_eq_some h, by simpa using List.find?_some h⟩

theorem Process.env?_none {key : ℕ} (h : p.env? key = none) (he : e ∈ p.envs) : e.key ≠ key := by
  have hnot := List.find?_eq_none.1 h e he
  simpa using hnot

theorem Process.mem_setEnv {e' : Env} (h : e' ∈ (p.setEnv e).envs) : e' = e ∨ e' ∈ p.envs ∧ e'.key ≠ e.key := by
  obtain ⟨e₀, hmem, rfl⟩ := List.mem_map.1 h
  split
  · exact .inl rfl
  · rename_i hkey
    exact .inr ⟨hmem, hkey⟩

namespace Tended

theorem env_eq (h : Tended born p) {e e' : Env} (he : e ∈ p.envs) (he' : e' ∈ p.envs) (hkey : e.key = e'.key) : e = e' :=
  List.inj_on_of_nodup_map h.keys he he' hkey

theorem serial_ne (h : Tended born p) {e e' : Env} (he : e ∈ p.envs) (he' : e' ∈ p.envs) (hkey : e.key ≠ e'.key) :
    e.serial ≠ e'.serial := by
  intro hserial
  exact hkey (congrArg Env.key (List.inj_on_of_nodup_map h.serials he he' hserial))

/-- Only the state of one session changes, and it is not started again. -/
theorem control (h : Tended born p) {c c' : Control} (hc : p.controls[id]? = some c)
    (hstop : (c.alive = true → c.stop = true) → c'.alive = true → c'.stop = true) : Tended born (p.setControl id c') := by
  have hhalted : ∀ id', p.Halted id' → (p.setControl id c').Halted id' := by
    intro id' hold c₁ hc₁
    rw [Process.setControl, List.getElem?_set] at hc₁
    split at hc₁
    · rename_i heq
      subst heq
      split at hc₁
      · cases hc₁
        exact hstop (hold c hc)
      · cases hc₁
    · exact hold c₁ hc₁
  refine ⟨h.keys, h.serials, h.started, fun e he => ?_, h.entries, h.apart, fun session hmem => ?_, h.once, fun session hmem => ?_⟩
  · exact (h.tends e he).frame rfl (fun _ _ => rfl) (fun id _ => hhalted id) fun _ => Iff.rfl
  · rw [Process.setControl, List.length_set]
    exact h.bounds session hmem
  · exact (h.gone session hmem).imp_right (hhalted _)

/-- One environment changes, beside the registries. -/
theorem put (h : Tended born p) (he : e ∈ p.envs) (e' : Env) (hkey : e'.key = e.key) (hserial : e'.serial = e.serial)
    (henvs : p'.envs = (p.setEnv e').envs) (hstarted : p'.started = p.started) (hcontrols : p'.controls = p.controls)
    (hentries : ∀ entry ∈ p'.environments, ∃ e ∈ p.envs, e.key = entry.1) (hself : e'.Tends p' born)
    (hothers : ∀ e₀ ∈ p.envs, e₀.key ≠ e.key → e₀.Tends p' born)
    (hhooks : ∀ registry ∈ e'.hooks, ∀ e₀ ∈ p.envs, e₀.key ≠ e.key → registry ∉ e₀.hooks) : Tended born p' := by
  have hmem : ∀ e₀ ∈ p'.envs, e₀ = e' ∨ e₀ ∈ p.envs ∧ e₀.key ≠ e.key := by
    intro e₀ he₀
    rw [henvs] at he₀
    exact hkey ▸ Process.mem_setEnv he₀
  have hkeys : p'.envs.map Env.key = p.envs.map Env.key := by
    rw [henvs, Process.setEnv, List.map_map]
    refine List.map_congr_left fun e₀ _ => ?_
    simp only [Function.comp_apply]
    split
    · rename_i heq
      exact heq.symm
    · rfl
  have hserials : p'.envs.map Env.serial = p.envs.map Env.serial := by
    rw [henvs, Process.setEnv, List.map_map]
    refine List.map_congr_left fun e₀ he₀ => ?_
    simp only [Function.comp_apply]
    split
    · rename_i heq
      rw [hserial, h.env_eq he₀ he (heq.trans hkey)]
    · rfl
  have hlive : ∀ {α : Type} (f : Env → α) (x : α), p'.envs.map f = p.envs.map f → (∃ e ∈ p.envs, f e = x) → ∃ e ∈ p'.envs, f e = x := by
    rintro α f x hf ⟨e₀, he₀, rfl⟩
    have hin : f e₀ ∈ p'.envs.map f := hf ▸ List.mem_map_of_mem he₀
    exact List.mem_map.1 hin
  have hhalted : ∀ id, p.Halted id → p'.Halted id := by
    intro id hold
    rw [Process.Halted, hcontrols]
    exact hold
  refine ⟨hkeys ▸ h.keys, hserials ▸ h.serials, fun e₀ he₀ => ?_, fun e₀ he₀ => ?_, fun entry hentry => ?_, ?_,
    fun session hsession => ?_, h.once, fun session hsession => ?_⟩
  · rw [hstarted]
    rcases hmem e₀ he₀ with rfl | ⟨he₀, -⟩
    · rw [hserial]
      exact h.started e he
    · exact h.started e₀ he₀
  · rcases hmem e₀ he₀ with rfl | ⟨he₀, hne⟩
    · exact hself
    · exact hothers e₀ he₀ hne
  · exact hlive Env.key entry.1 hkeys (hentries entry hentry)
  · intro e₁ he₁ e₂ he₂ registry hr₁ hr₂
    rcases hmem e₁ he₁ with rfl | ⟨he₁, hne₁⟩ <;> rcases hmem e₂ he₂ with rfl | ⟨he₂, hne₂⟩
    · rfl
    · exact absurd hr₂ (hhooks registry hr₁ e₂ he₂ hne₂)
    · exact absurd hr₁ (hhooks registry hr₂ e₁ he₁ hne₁)
    · exact h.apart e₁ he₁ e₂ he₂ registry hr₁ hr₂
  · rw [hstarted, hcontrols]
    exact h.bounds session hsession
  · exact (h.gone session hsession).imp (hlive Env.serial session.2 hserials) (hhalted session.1)

theorem update (h : Tended born p) (he : e ∈ p.envs) {e' : Env} (hkey : e'.key = e.key) (hserial : e'.serial = e.serial)
    (hself : e'.Tends p born) (hhooks : ∀ registry ∈ e'.hooks, registry ∈ e.hooks) : Tended born (p.setEnv e') := by
  refine h.put he _ hkey hserial rfl rfl rfl h.entries
    (hself.frame rfl (fun _ _ => rfl) (fun _ _ => fun hold => hold) fun _ => Iff.rfl)
    (fun e₀ he₀ _ => (h.tends e₀ he₀).frame rfl (fun _ _ => rfl) (fun _ _ => fun hold => hold) fun _ => Iff.rfl) ?_
  intro registry hr e₀ he₀ hne hr₀
  exact hne (congrArg Env.key (h.apart e₀ he₀ e he registry hr₀ (hhooks registry hr)))

end Tended

/-! ### A session is registered -/

theorem Tended.push (h : Tended born p) (c : Control) : Tended born { p with controls := p.controls ++ [c] } := by
  have hhalted : ∀ session ∈ born, p.Halted session.1 →
      Process.Halted { p with controls := p.controls ++ [c] } session.1 := by
    intro session hmem hold c₁ hc₁
    rw [List.getElem?_append_left (h.bounds session hmem).1] at hc₁
    exact hold c₁ hc₁
  refine ⟨h.keys, h.serials, h.started, fun e he => ?_, h.entries, h.apart, fun session hmem => ?_, h.once, fun session hmem => ?_⟩
  · exact (h.tends e he).frame rfl (fun _ _ => rfl) (fun id hid => hhalted (id, e.serial) hid) fun _ => Iff.rfl
  · obtain ⟨hlt, hserial⟩ := h.bounds session hmem
    exact ⟨by rw [List.length_append]; omega, hserial⟩
  · exact (h.gone session hmem).imp_right (hhalted session hmem)

theorem Tended.install (h : Tended born p) (he : e ∈ p.envs) (htorn : e.torn = false)
    (hvacant : p.environments.lookup e.key = none) :
    Tended born (Process.setEnv
      { p with registries := p.registries ++ [[]], environments := p.environments ++ [(e.key, p.registries.length)] }
      { e with hooks := e.hooks ++ [p.registries.length] }) := by
  have hfresh : ∀ e₀ ∈ p.envs, p.registries.length ∉ e₀.hooks := fun e₀ he₀ hmem => lt_irrefl _ ((h.tends e₀ he₀).hook_lt hmem)
  refine h.put he { e with hooks := e.hooks ++ [p.registries.length] } rfl rfl rfl rfl rfl (fun entry hentry => ?_) ?_
    (fun e₀ he₀ hne => ?_) ?_
  · rcases List.mem_append.1 hentry with hold | hnew
    · exact h.entries entry hold
    · rw [List.mem_singleton] at hnew
      exact ⟨e, he, by rw [hnew]⟩
  · cases h.tends e he with
    | idle hooks running _ halted =>
      refine @Env.Tends.hooked _ _ _ p.registries.length [] ?_ running ?_ ?_ (nofun) fun id hid => .inr (halted id hid)
      · rw [hooks]
        rfl
      · show List.lookup e.key (p.environments ++ [(e.key, p.registries.length)]) = _
        rw [List.lookup_append, hvacant]
        simp
      · exact List.getElem?_concat_length
    | hooked _ _ entry => rw [hvacant] at entry; cases entry
    | stopping torn => rw [htorn] at torn; cases torn
    | removing torn => rw [htorn] at torn; cases torn
  · refine (h.tends e₀ he₀).frame ?_ (fun registry hr => ?_) (fun _ _ => fun hold => hold) fun _ => Iff.rfl
    · show List.lookup e₀.key (p.environments ++ [(e.key, p.registries.length)]) = _
      rw [List.lookup_append, List.lookup_cons, beq_eq_false_iff_ne.2 hne]
      exact Option.or_none
    · exact List.getElem?_append_left ((h.tends e₀ he₀).hook_lt hr)
  · intro registry hr e₀ he₀ hne
    rcases List.mem_append.1 hr with hold | hnew
    · intro hr₀
      exact hne (congrArg Env.key (h.apart e₀ he₀ e he registry hr₀ hold))
    · rw [List.mem_singleton] at hnew
      exact hnew ▸ hfresh e₀ he₀

/-- A session is made for an environment, and nothing else changes for the others. -/
theorem Tended.bear (h : Tended born p) (he : e ∈ p.envs) (hid : id < p.controls.length) (hnew : id ∉ born.map Prod.fst)
    (henvs : p'.envs = p.envs) (hstarted : p'.started = p.started) (hcontrols : p'.controls = p.controls)
    (henvironments : p'.environments = p.environments)
    (hregistries : ∀ e₀ ∈ p.envs, e₀ ≠ e → ∀ registry ∈ e₀.hooks, p'.registries[registry]? = p.registries[registry]?)
    (hself : e.Tends p' (born ++ [(id, e.serial)])) : Tended (born ++ [(id, e.serial)]) p' := by
  have hhalted : ∀ id, p.Halted id → p'.Halted id := by
    intro id hold
    rw [Process.Halted, hcontrols]
    exact hold
  refine ⟨henvs ▸ h.keys, henvs ▸ h.serials, ?_, ?_, ?_, ?_, ?_, ?_, ?_⟩
  · rw [henvs, hstarted]
    exact h.started
  · rw [henvs]
    intro e₀ he₀
    by_cases heq : e₀ = e
    · exact heq ▸ hself
    · have hkey : e₀.key ≠ e.key := fun hkey => heq (h.env_eq he₀ he hkey)
      refine (h.tends e₀ he₀).frame (by rw [henvironments]) (hregistries e₀ he₀ heq) (fun id _ => hhalted id) fun id₀ => ?_
      simp [h.serial_ne he₀ he hkey]
  · rw [henvironments, henvs]
    exact h.entries
  · rw [henvs]
    exact h.apart
  · rw [hstarted, hcontrols]
    intro session hmem
    rcases List.mem_append.1 hmem with hold | hsession
    · exact h.bounds session hold
    · rw [List.mem_singleton.1 hsession]
      exact ⟨hid, h.started e he⟩
  · rw [List.map_append, List.nodup_append]
    refine ⟨h.once, List.nodup_singleton _, fun a ha b hb => ?_⟩
    rw [List.mem_singleton.1 hb]
    rintro rfl
    exact hnew ha
  · intro session hmem
    rw [henvs]
    rcases List.mem_append.1 hmem with hold | hsession
    · exact (h.gone session hold).imp_right (hhalted session.1)
    · exact .inl ⟨e, he, by rw [List.mem_singleton.1 hsession]⟩

/-- The registry of an environment takes a new session, and lets go of those that were dropped. -/
theorem Tended.enroll (h : Tended born p) (he : e ∈ p.envs) (htorn : e.torn = false) {registry : ℕ}
    (hentry : p.environments.lookup e.key = some registry) (hid : id < p.controls.length) (hnew : id ∉ born.map Prod.fst) :
    Tended (born ++ [(id, e.serial)]) (p.enroll registry id) := by
  cases h.tends e he with
  | idle _ _ entry => rw [hentry] at entry; cases entry
  | stopping torn => rw [htorn] at torn; cases torn
  | removing torn => rw [htorn] at torn; cases torn
  | @hooked registry' sessions hooks running entry enrolled own kept =>
    obtain rfl : registry = registry' := Option.some.inj (hentry.symm.trans entry)
    refine h.bear he hid hnew rfl rfl rfl rfl (fun e₀ he₀ hne registry' hr => ?_) ?_
    · have hapart : registry ≠ registry' := by
        rintro rfl
        exact hne (h.apart e₀ he₀ e he registry hr (hooks ▸ List.mem_singleton_self _))
      exact List.getElem?_modify_ne _ _ hapart
    · have halive : ∀ id, p.alive id = false → p.Halted id := by
        intro id hdead c hc hcalive
        rw [Process.alive, hc] at hdead
        exact absurd hcalive (by simpa using hdead)
      refine @Env.Tends.hooked _ _ _ _ (sessions.filter p.alive ++ [id]) hooks running entry ?_ (fun id₀ hmem => ?_) fun id₀ hmem => ?_
      · show (p.registries.modify registry _)[registry]? = _
        rw [List.getElem?_modify_eq, enrolled]
        rfl
      · rcases List.mem_append.1 hmem with hold | hlast
        · exact List.mem_append_left _ (own id₀ (List.mem_filter.1 hold).1)
        · rw [List.mem_singleton.1 hlast]
          exact List.mem_append_right _ (List.mem_singleton_self _)
      · rcases List.mem_append.1 hmem with hold | hlast
        · rcases kept id₀ hold with hin | hout
          · cases hlive : p.alive id₀ with
            | true => exact .inl (List.mem_append_left _ (List.mem_filter.2 ⟨hin, hlive⟩))
            | false => exact .inr (halive id₀ hlive)
          · exact .inr hout
        · obtain rfl : id₀ = id := by simpa using hlast
          exact .inl (List.mem_append_right _ (List.mem_singleton_self _))

/-- **A port is constructed**, or its constructor fails. -/
theorem Tended.create (h : Tended born p) (he : e ∈ p.envs) (htorn : e.torn = false) (hooked : Bool) :
    Tended (born ++ [(p.controls.length, e.serial)])
      ((Process.register { p with controls := p.controls ++ [(⟨false, true, false⟩ : Control)] } e p.controls.length hooked).getD
        { p with controls := p.controls ++ [(⟨false, false, false⟩ : Control)] }) := by
  have hnew : p.controls.length ∉ born.map Prod.fst := by
    intro hmem
    obtain ⟨session, hsession, heq⟩ := List.mem_map.1 hmem
    have hlt := (h.bounds session hsession).1
    omega
  have hlength : ∀ c : Control, p.controls.length < (p.controls ++ [c]).length := by simp
  rw [Process.register]
  cases hentry : p.environments.lookup e.key with
  | some registry => exact (h.push _).enroll he htorn hentry (hlength _) hnew
  | none =>
    cases hooked with
    | true =>
      have hinstall := (h.push ⟨false, true, false⟩).install he htorn hentry
      refine hinstall.enroll (e := { e with hooks := e.hooks ++ [p.registries.length] }) ?_ htorn ?_ (hlength _) hnew
      · exact List.mem_map.2 ⟨e, he, if_pos rfl⟩
      · show List.lookup e.key (p.environments ++ [(e.key, p.registries.length)]) = _
        rw [List.lookup_append, hentry]
        simp
    | false =>
      refine (h.push ⟨false, false, false⟩).bear he (hlength _) hnew rfl rfl rfl rfl (fun _ _ _ _ _ => rfl) ?_
      have htends := (h.push ⟨false, false, false⟩).tends e he
      have hdead : Process.Halted { p with controls := p.controls ++ [⟨false, false, false⟩] } p.controls.length := by
        intro c hc hcalive
        obtain rfl : (⟨false, false, false⟩ : Control) = c := by simpa using hc
        cases hcalive
      cases htends with
      | idle hooks running entry halted =>
        refine .idle hooks running entry fun id hid => ?_
        rcases List.mem_append.1 hid with hold | hlast
        · exact halted id hold
        · obtain rfl : id = p.controls.length := by simpa using hlast
          exact hdead
      | hooked _ _ entry => rw [show p.environments.lookup e.key = none from hentry] at entry; cases entry
      | stopping torn => rw [htorn] at torn; cases torn
      | removing torn => rw [htorn] at torn; cases torn

/-! ### An environment comes, is torn down, and goes -/

theorem Tended.begin (h : Tended born p) {key : ℕ} (hkey : p.env? key = none) :
    Tended born { p with envs := p.envs ++ [{ serial := p.started, key := key }], started := p.started + 1 } := by
  have hne : ∀ e ∈ p.envs, e.key ≠ key := fun e he => Process.env?_none hkey he
  have hlookup : p.environments.lookup key = none := by
    rw [List.lookup_eq_none_iff]
    intro entry hentry
    obtain ⟨e, he, heq⟩ := h.entries entry hentry
    rw [← heq]
    exact bne_iff_ne.2 (hne e he).symm
  refine ⟨?_, ?_, ?_, ?_, fun entry hentry => ?_, ?_, fun session hmem => ?_, h.once, fun session hmem => ?_⟩
  · rw [List.map_append, List.nodup_append]
    refine ⟨h.keys, List.nodup_singleton _, fun a ha b hb => ?_⟩
    obtain ⟨e, he, rfl⟩ := List.mem_map.1 ha
    rw [List.mem_singleton.1 hb]
    exact hne e he
  · rw [List.map_append, List.nodup_append]
    refine ⟨h.serials, List.nodup_singleton _, fun a ha b hb => ?_⟩
    obtain ⟨e, he, rfl⟩ := List.mem_map.1 ha
    rw [List.mem_singleton.1 hb]
    exact (h.started e he).ne
  · intro e he
    rcases List.mem_append.1 he with hold | hnew
    · exact (h.started e hold).trans (Nat.lt_succ_self _)
    · rw [List.mem_singleton.1 hnew]
      exact Nat.lt_succ_self _
  · intro e he
    rcases List.mem_append.1 he with hold | hnew
    · exact (h.tends e hold).frame rfl (fun _ _ => rfl) (fun _ _ => fun hold => hold) fun _ => Iff.rfl
    · rw [List.mem_singleton.1 hnew]
      refine .idle rfl rfl hlookup fun id hid => ?_
      exact absurd (h.bounds _ hid).2 (lt_irrefl _)
  · obtain ⟨e, he, heq⟩ := h.entries entry hentry
    exact ⟨e, List.mem_append_left _ he, heq⟩
  · intro e he e' he' registry hr hr'
    rcases List.mem_append.1 he with hold | hnew
    · rcases List.mem_append.1 he' with hold' | hnew'
      · exact h.apart e hold e' hold' registry hr hr'
      · rw [List.mem_singleton.1 hnew'] at hr'
        cases hr'
    · rw [List.mem_singleton.1 hnew] at hr
      cases hr
  · obtain ⟨hlt, hserial⟩ := h.bounds session hmem
    exact ⟨hlt, hserial.trans (Nat.lt_succ_self _)⟩
  · rcases h.gone session hmem with ⟨e, he, heq⟩ | hhalted
    · exact .inl ⟨e, List.mem_append_left _ he, heq⟩
    · exact .inr hhalted

theorem Tended.tear (h : Tended born p) (he : e ∈ p.envs) : Tended born (p.setEnv { e with torn := true }) := by
  refine h.update he rfl rfl ?_ fun _ hr => hr
  cases h.tends e he with
  | idle hooks running entry halted => exact .idle hooks running entry halted
  | hooked hooks running entry enrolled own kept => exact .hooked hooks running entry enrolled own kept
  | stopping _ hooks running own kept => exact .stopping rfl hooks running own kept
  | removing _ hooks running halted => exact .removing rfl hooks running halted

theorem lookup_filter_ne {environments : List (ℕ × ℕ)} {key key' : ℕ} (hne : key' ≠ key) :
    (environments.filter (·.1 != key)).lookup key' = environments.lookup key' := by
  induction environments with
  | nil => rfl
  | cons entry environments ih =>
    rw [List.filter_cons]
    split
    · rw [List.lookup_cons, List.lookup_cons, ih]
    · rename_i hentry
      obtain heq : entry.1 = key := by simpa using hentry
      rw [List.lookup_cons, heq, beq_eq_false_iff_ne.2 hne, ih]

theorem lookup_filter_self (environments : List (ℕ × ℕ)) (key : ℕ) :
    (environments.filter (·.1 != key)).lookup key = none := by
  rw [List.lookup_eq_none_iff]
  intro entry hentry
  have hne : entry.1 ≠ key := by simpa using (List.mem_filter.1 hentry).2
  exact bne_iff_ne.2 hne.symm

theorem Tended.remove (h : Tended born p) (he : e ∈ p.envs) (hhooks : e.hooks = [])
    (hhalted : ∀ id, (id, e.serial) ∈ born → p.Halted id) :
    Tended born (Process.setEnv { p with environments := p.environments.filter (·.1 != e.key) } { e with running := none }) := by
  refine h.put he { e with running := none } rfl rfl rfl rfl rfl (fun entry hentry => ?_) ?_ (fun e₀ he₀ hne => ?_) ?_
  · exact h.entries entry (List.mem_filter.1 hentry).1
  · exact .idle hhooks rfl (lookup_filter_self p.environments e.key) hhalted
  · exact (h.tends e₀ he₀).frame (lookup_filter_ne hne) (fun _ _ => rfl) (fun _ _ => fun hold => hold) fun _ => Iff.rfl
  · intro registry hr
    rw [show ({ e with running := none } : Env).hooks = [] from hhooks] at hr
    cases hr

/-- **One step of a cleanup hook.** -/
theorem Tended.hook (h : Tended born p) (he : e ∈ p.envs) (htorn : e.torn = true) {out : List Process.Output}
    (hstep : p.stepHook e = some (p', out)) :
    Tended born p' ∧ ∀ serial id, Process.Output.stopped serial id ∈ out → (id, serial) ∈ born := by
  rw [Process.stepHook] at hstep
  cases h.tends e he with
  | idle hooks running => rw [running, hooks] at hstep; cases hstep
  | hooked hooks running entry enrolled own kept =>
    rw [running, hooks] at hstep
    cases hstep
    refine ⟨h.update he rfl rfl ?_ fun _ hr => (nomatch hr), fun _ _ hmem => nomatch hmem⟩
    rw [List.getLast_singleton, enrolled]
    exact .stopping htorn rfl rfl own kept
  | removing _ hooks running halted =>
    rw [running] at hstep
    cases hstep
    exact ⟨h.remove he hooks halted, fun _ _ hmem => nomatch hmem⟩
  | @stopping sessions _ hooks running own kept =>
    rw [running] at hstep
    cases sessions with
    | nil =>
      cases hstep
      refine ⟨h.update he rfl rfl ?_ fun _ hr => hr, fun _ _ hmem => nomatch hmem⟩
      exact .removing htorn hooks rfl fun id hid => (kept id hid).resolve_left (List.not_mem_nil)
    | cons id sessions =>
      have hown : ∀ id' ∈ sessions, (id', e.serial) ∈ born := fun id' hmem => own id' (List.mem_cons_of_mem _ hmem)
      -- the session at the head is halted now, or it was
      have hpass : ∀ {p₁ : Process}, Tended born p₁ → e ∈ p₁.envs → p₁.Halted id → (∀ id', p.Halted id' → p₁.Halted id') →
          Tended born (p₁.setEnv { e with running := some (.stopping sessions) }) := by
        intro p₁ h₁ he₁ hid hold
        refine h₁.update he₁ rfl rfl ?_ fun _ hr => hr
        refine .stopping htorn hooks rfl hown fun id' hid' => ?_
        rcases kept id' hid' with hmem | hhalted
        · rcases List.mem_cons.1 hmem with rfl | hmem
          · exact .inr hid
          · exact .inl hmem
        · exact .inr (hold id' hhalted)
      cases hc : p.controls[id]? with
      | none =>
        simp only [hc] at hstep
        cases hstep
        refine ⟨hpass h he (fun c hc' => ?_) fun _ hold => hold, fun _ _ hmem => nomatch hmem⟩
        rw [hc] at hc'
        cases hc'
      | some c =>
        simp only [hc] at hstep
        split at hstep
        · cases hstep
          have hcontrol : Tended born (p.setControl id { c with stop := true }) := h.control hc fun _ _ => rfl
          refine ⟨hpass hcontrol he (fun c' hc' _ => ?_) fun id' hold c' hc' halive => ?_, fun serial id' hmem => ?_⟩
          · rw [Process.setControl, List.getElem?_set_self (List.getElem?_eq_some_iff.1 hc).1] at hc'
            cases hc'
            rfl
          · rw [Process.setControl, List.getElem?_set] at hc'
            split at hc'
            · split at hc'
              · cases hc'
                rfl
              · cases hc'
            · exact hold c' hc' halive
          · cases List.mem_singleton.1 hmem
            exact own id (List.mem_cons_self)
        · rename_i halive
          cases hstep
          refine ⟨hpass h he (fun c' hc' halive' => ?_) fun _ hold => hold, fun _ _ hmem => nomatch hmem⟩
          obtain rfl : c = c' := Option.some.inj (hc.symm.trans hc')
          exact absurd halive' halive

theorem Tended.leave (h : Tended born p) (he : e ∈ p.envs) (hhooks : e.hooks = []) (hrunning : e.running = none) :
    Tended born { p with envs := p.envs.filter (·.key != e.key) } := by
  have hmem : ∀ {e₀}, e₀ ∈ p.envs.filter (·.key != e.key) → e₀ ∈ p.envs := fun hin => (List.mem_filter.1 hin).1
  have hstay : ∀ {e₀}, e₀ ∈ p.envs → e₀.key ≠ e.key → e₀ ∈ p.envs.filter (·.key != e.key) := by
    intro e₀ he₀ hne
    exact List.mem_filter.2 ⟨he₀, by simpa using hne⟩
  obtain ⟨hentry, hhalted⟩ : p.environments.lookup e.key = none ∧ ∀ id, (id, e.serial) ∈ born → p.Halted id := by
    cases h.tends e he with
    | idle _ _ entry halted => exact ⟨entry, halted⟩
    | hooked hooks => rw [hhooks] at hooks; cases hooks
    | stopping _ _ running => rw [hrunning] at running; cases running
    | removing _ _ running => rw [hrunning] at running; cases running
  refine ⟨h.keys.sublist (List.filter_sublist.map _), h.serials.sublist (List.filter_sublist.map _),
    fun e₀ he₀ => h.started e₀ (hmem he₀), fun e₀ he₀ => ?_, fun entry hin => ?_,
    fun e₁ he₁ e₂ he₂ => h.apart e₁ (hmem he₁) e₂ (hmem he₂), h.bounds, h.once, fun session hsession => ?_⟩
  · exact (h.tends e₀ (hmem he₀)).frame rfl (fun _ _ => rfl) (fun _ _ => fun hold => hold) fun _ => Iff.rfl
  · obtain ⟨e₀, he₀, heq⟩ := h.entries entry hin
    refine ⟨e₀, hstay he₀ fun hkey => ?_, heq⟩
    have hnot := List.lookup_eq_none_iff.1 hentry entry hin
    rw [← heq, hkey] at hnot
    simp at hnot
  · rcases h.gone session hsession with ⟨e₀, he₀, heq⟩ | hold
    · by_cases hkey : e₀.key = e.key
      · obtain rfl := h.env_eq he₀ he hkey
        exact .inr (hhalted session.1 (heq ▸ hsession))
      · exact .inl ⟨e₀, hstay he₀ hkey, heq⟩
    · exact .inr hold

/-! ### Runs -/

/-- **Step lemma.** -/
theorem tended_step (h : Tended born p) {i : Process.Input} {out : List Process.Output} (hstep : p.step i = some (p', out)) :
    Tended (born ++ p.made i) p' ∧ ∀ serial id, Process.Output.stopped serial id ∈ out → (id, serial) ∈ born := by
  have hquiet : ∀ {q : Process}, Tended born q → some (q, ([] : List Process.Output)) = some (p', out) →
      Tended (born ++ []) p' ∧ ∀ serial id, Process.Output.stopped serial id ∈ out → (id, serial) ∈ born := by
    intro q hq heq
    cases heq
    rw [List.append_nil]
    exact ⟨hq, fun _ _ hmem => nomatch hmem⟩
  cases i with
  | start key =>
    rw [Process.step] at hstep
    split at hstep
    · rename_i hkey
      exact hquiet (h.begin (Option.isNone_iff_eq_none.1 hkey)) hstep
    · cases hstep
  | create key hooked =>
    rw [Process.step] at hstep
    split at hstep
    · cases hstep
    · rename_i e henv
      split at hstep
      · cases hstep
      · rename_i htorn
        have htorn : e.torn = false := by simpa using htorn
        have hcreate := h.create (Process.env?_some henv).1 htorn hooked
        have hmade : p.made (.create key hooked) = [(p.controls.length, e.serial)] := by
          simp only [Process.made, henv, htorn, Bool.false_eq_true, if_false]
        rw [hmade]
        cases hstep
        exact ⟨hcreate, fun _ _ hmem => nomatch hmem⟩
  | spawn id started =>
    rw [Process.step] at hstep
    split at hstep
    · cases hstep
    · rename_i c hc
      split at hstep
      · rename_i hguard
        simp only [Bool.and_eq_true, Bool.not_eq_true'] at hguard
        refine hquiet (h.control hc fun hold => ?_) hstep
        have halive : c.alive = true := by rw [Control.alive, hguard.1.1]; rfl
        rw [hold halive] at hguard
        cases hguard.2
      · cases hstep
  | close id =>
    rw [Process.step] at hstep
    split at hstep
    · cases hstep
    · rename_i c hc
      split at hstep
      · exact hquiet (h.control hc fun _ _ => rfl) hstep
      · cases hstep
  | finalize id =>
    rw [Process.step] at hstep
    split at hstep
    · cases hstep
    · rename_i c hc
      split at hstep
      · exact hquiet (h.control hc fun _ _ => rfl) hstep
      · cases hstep
  | finish id =>
    rw [Process.step] at hstep
    split at hstep
    · cases hstep
    · rename_i c hc
      split at hstep
      · exact hquiet (h.control hc fun _ _ => rfl) hstep
      · cases hstep
  | teardown key =>
    rw [Process.step] at hstep
    split at hstep
    · cases hstep
    · rename_i e henv
      split at hstep
      · cases hstep
      · exact hquiet (h.tear (Process.env?_some henv).1) hstep
  | hook key =>
    rw [Process.step] at hstep
    split at hstep
    · cases hstep
    · rename_i e henv
      split at hstep
      · rename_i htorn
        rw [show p.made (.hook key) = [] from rfl, List.append_nil]
        exact h.hook (Process.env?_some henv).1 htorn hstep
      · cases hstep
  | gone key =>
    rw [Process.step] at hstep
    split at hstep
    · cases hstep
    · rename_i e henv
      obtain ⟨he, rfl⟩ := Process.env?_some henv
      split at hstep
      · rename_i hguard
        simp only [Bool.and_eq_true, List.isEmpty_iff, Option.isNone_iff_eq_none] at hguard
        exact hquiet (h.leave he hguard.1.2 hguard.2) hstep
      · cases hstep

/-- The sessions that the hook of an environment has before it. -/
def Env.awaits (p : Process) (e : Env) : List ℕ :=
  match e.running with
  | some (.stopping sessions) => sessions
  | some .removing => []
  | none => e.hooks.flatMap fun registry => (p.registries[registry]?).getD []

theorem Env.Tends.awaits (h : e.Tends p born) :
    (∀ id ∈ e.awaits p, (id, e.serial) ∈ born) ∧ ∀ id, (id, e.serial) ∈ born → id ∈ e.awaits p ∨ p.Halted id := by
  cases h with
  | idle hooks running _ halted =>
    rw [Env.awaits, running, hooks]
    exact ⟨fun _ hmem => (nomatch hmem), fun id hid => .inr (halted id hid)⟩
  | hooked hooks running _ enrolled own kept =>
    rw [Env.awaits, running, hooks, List.flatMap_singleton, enrolled]
    exact ⟨own, kept⟩
  | stopping _ hooks running own kept =>
    rw [Env.awaits, running]
    exact ⟨own, kept⟩
  | removing _ hooks running halted =>
    rw [Env.awaits, running]
    exact ⟨fun _ hmem => (nomatch hmem), fun id hid => .inr (halted id hid)⟩

theorem Env.Tends.one_hook (h : e.Tends p born) : e.hooks.length ≤ 1 := by
  cases h with
  | hooked hooks => rw [hooks]; rfl
  | idle hooks => rw [hooks]; exact Nat.zero_le 1
  | stopping _ hooks => rw [hooks]; exact Nat.zero_le 1
  | removing _ hooks => rw [hooks]; exact Nat.zero_le 1

/-- **Run lemma.** -/
theorem tended_run {inputs : List Process.Input} {outputs : List Process.Output}
    (hrun : process.run {} inputs = some (p, outputs)) :
    Tended (process.collect Process.made {} inputs) p ∧
      ∀ serial id, .stopped serial id ∈ outputs → (id, serial) ∈ process.collect Process.made {} inputs := by
  refine (Machine.run_rule_all (fun inputs outputs p =>
    process.run {} inputs = some (p, outputs) ∧ Tended (process.collect Process.made {} inputs) p ∧
      ∀ serial id, .stopped serial id ∈ outputs → (id, serial) ∈ process.collect Process.made {} inputs) ?_ ?_ hrun).2
  · exact ⟨rfl, tended_start, fun _ _ hmem => nomatch hmem⟩
  · rintro inputs outputs p i p' out ⟨hpre, htended, hown⟩ hstep
    obtain ⟨htended', hstopped⟩ := tended_step htended hstep
    refine ⟨process.run_append hpre (Machine.run_singleton hstep), ?_, fun serial id hmem => ?_⟩
    · rw [Machine.collect_snoc hpre]
      exact htended'
    · rw [Machine.collect_snoc hpre]
      refine List.mem_append_left _ ?_
      rcases List.mem_append.1 hmem with hold | hnew
      · exact hown serial id hold
      · exact hstopped serial id hnew

/-- **Sessions and environments.**  In every run of the process: a session that runs, and is not told to stop, belongs to an
environment that is still there, and is one of those the hook of this environment has before it; the hook has only sessions
of its own environment before it, and stopped no others; an environment has at most one hook, and there are entries for
environments that are there only. -/
theorem sessions_tended (inputs : List Process.Input) (p : Process) (outputs : List Process.Output)
    (hrun : process.run {} inputs = some (p, outputs)) :
    (∀ id serial c, (id, serial) ∈ process.collect Process.made {} inputs → p.controls[id]? = some c → c.alive = true →
      c.stop = false → ∃ e ∈ p.envs, e.serial = serial ∧ id ∈ e.awaits p) ∧
    (∀ e ∈ p.envs, ∀ id ∈ e.awaits p, (id, e.serial) ∈ process.collect Process.made {} inputs) ∧
    (∀ serial id, .stopped serial id ∈ outputs → (id, serial) ∈ process.collect Process.made {} inputs) ∧
    (∀ e ∈ p.envs, e.hooks.length ≤ 1) ∧ (∀ entry ∈ p.environments, ∃ e ∈ p.envs, e.key = entry.1) := by
  obtain ⟨h, hstopped⟩ := tended_run hrun
  refine ⟨fun id serial c hborn hc halive hstop => ?_, fun e he => (h.tends e he).awaits.1, hstopped,
    fun e he => (h.tends e he).one_hook, h.entries⟩
  have hruns : ¬ p.Halted id := by
    intro hhalted
    rw [hhalted c hc halive] at hstop
    cases hstop
  obtain ⟨e, he, rfl⟩ := (h.gone (id, serial) hborn).resolve_right hruns
  exact ⟨e, he, rfl, ((h.tends e he).awaits.2 id hborn).resolve_right hruns⟩

/-- The pointer of an environment that is gone names another one, whose session is left alone by the old hook. -/
theorem sessions_tended_reused : ∃ p outputs,
    process.run {} [.start 7, .create 7 true, .spawn 0 true, .teardown 7, .hook 7, .hook 7, .hook 7, .hook 7, .gone 7, .start 7,
      .create 7 true, .spawn 1 true, .finish 0] = some (p, outputs) ∧ outputs = [.stopped 0 0] ∧
      ∃ e ∈ p.envs, e.serial = 1 ∧ 1 ∈ e.awaits p :=
  ⟨_, _, rfl, rfl, (sessions_tended [.start 7, .create 7 true, .spawn 0 true, .teardown 7, .hook 7, .hook 7, .hook 7, .hook 7, .gone 7,
    .start 7, .create 7 true, .spawn 1 true, .finish 0] _ _ rfl).1 1 1 _ (by decide) rfl rfl rfl⟩

end NodeSerialport.Native
