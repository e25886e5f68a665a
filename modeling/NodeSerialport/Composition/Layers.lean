import NodeSerialport.Composition.Opening
import NodeSerialport.Composition.Stack
import NodeSerialport.Stream.Input
/-!
# The layers of the stack

A run of the stack is a run of its connection, and of each of its ports with its native side; what holds of those holds
of the stack.  The bytes of the devices reach the application.

* `StackStep` — what one step can do;
* `run_connection`, `Ported` — the runs of the parts;
* `Whole` — the invariant of the three layers: the bytes the stream pushed, or is about to push, are what its ports
  handed over, port after port;
* `input_conveyed` — over every run of the stack.
-/

namespace NodeSerialport.Composition

open Lib (Machine)
open Parsers (Buffer)
open Binding (Client Method Settlement passed)
open Native (NativePort)
open NodeSerialport.Stream (SerialPortStream pushed)

/-! ### Steps -/

/-- **What one step of the stack can do.** -/
inductive StackStep (s : Stack) : Stack.Input → Stack → List Stack.Output → Prop
  /-- The stream goes on, and runs no method of a port. -/
  | stream {input : Stream.Input} {argument : Settlement ℕ} {c : Connection} {out : List Stream.Output}
      (h : s.connection.step (.stream input argument) = some (c, out)) (hports : c.ports = s.connection.ports) :
      StackStep s (.stream input argument) ⟨c, s.natives⟩ (out.map .stream)
  /-- A port is made. -/
  | opened {input : Stream.Input} {argument : Settlement ℕ} {c : Connection} {out : List Stream.Output}
      (h : s.connection.step (.stream input argument) = some (c, out))
      (hports : c.ports = s.connection.ports ++ [Client.new s.connection.path 1]) :
      StackStep s (.stream input argument) ⟨c, s.natives ++ [({} : NativePort)]⟩ (out.map .stream)
  /-- The stream calls a method of a port. -/
  | invoked {argument : Settlement ℕ} {c : Connection} {output : Stream.Output} {kind : Stream.Kind}
      {rest : List Stream.Task} {p : ℕ} {m : Method} {t t' : System} {made : List Output}
      (h : s.connection.step (.stream .proceed argument) = some (c, [output]))
      (htodo : s.connection.stream.todo = .call output kind :: rest)
      (htarget : s.connection.target argument output = some (p, .ok m)) (hport : s.port p = some t)
      (hstep : system.step t (.js (.invoke m)) = some (t', made)) (hports : c.ports = s.connection.ports.set p t'.js) :
      StackStep s (.stream .proceed argument) ⟨c, s.natives.set p t'.native⟩ (.stream output :: made.map (.port p))
  /-- A port goes on. -/
  | port {p : ℕ} {i : Input} {j : Binding.Input} {t t' : System} {out : List Output}
      (h : s.connection.step (.port p j) = some (s.connection.receive p t'.js (jsOutputs out), []))
      (hport : s.port p = some t) (hturns : s.connection.turns j = true)
      (hjs : Binding.client.step t.js j = some (t'.js, jsOutputs out)) (hi : ∀ m, i ≠ .js (.invoke m))
      (hstep : system.step t i = some (t', out)) : StackStep s (.port p i) (s.receive p t' out) (out.map (.port p))
  /-- A native side goes on. -/
  | native {p : ℕ} {i : Native.Input} {t t' : System} {out : List Output} (hport : s.port p = some t)
      (hjs : t'.js = t.js) (hpassed : jsOutputs out = []) (hstep : system.step t (.native i) = some (t', out)) :
      StackStep s (.port p (.native i)) { s with natives := s.natives.set p t'.native } (out.map (.port p))

variable {s s' : Stack} {out outputs : List Stack.Output}

theorem port_parts {p : ℕ} {t : System} (h : s.port p = some t) :
    s.connection.ports[p]? = some t.js ∧ s.natives[p]? = some t.native := by
  unfold Stack.port at h
  split at h
  · rename_i hjs hnative
    cases h
    exact ⟨hjs, hnative⟩
  · cases h

theorem js_step {t t' : System} {i : Binding.Input} {made : List Output}
    (h : system.step t (.js i) = some (t', made)) : Binding.client.step t.js i = some (t'.js, jsOutputs made) := by
  cases system_step h with
  | js hi hjs =>
    rw [jsOutputs_js]
    exact hjs

theorem calls_noted {out : List Stream.Output} (h : ∀ output ∈ out, output.noted) (s : Stack) (argument : Settlement ℕ) :
    s.calls argument out = some (s, out.map .stream) := by
  induction out with
  | nil => rfl
  | cons output out ih =>
    have hone : s.call argument output = some (s, []) := by
      have hnoted := h output List.mem_cons_self
      cases output with
      | handed | torn => rfl
      | _ => cases hnoted
    have hrest := ih fun output hmem => h output (List.mem_cons_of_mem _ hmem)
    simp only [Stack.calls, hone, hrest, List.map_cons, List.singleton_append]

theorem calls_one {argument : Settlement ℕ} {output : Stream.Output} (h : s.calls argument [output] = some (s', out)) :
    ∃ made, s.call argument output = some (s', made) ∧ out = .stream output :: made := by
  unfold Stack.calls at h
  split at h
  · cases h
  rename_i s₁ made hcall
  rw [Stack.calls] at h
  cases h
  exact ⟨made, hcall, congrArg _ (List.append_nil _)⟩

/-- What a call of the stack comes to. -/
inductive CallStep (s : Stack) (argument : Settlement ℕ) (output : Stream.Output) : Stack → List Stack.Output → Prop
  | opened {c : Connection} (h : s.connection.call argument output = some c)
      (hports : c.ports = s.connection.ports ++ [Client.new s.connection.path 1]) :
      CallStep s argument output ⟨c, s.natives ++ [({} : NativePort)]⟩ []
  | answered {c : Connection} (h : s.connection.call argument output = some c) (hports : c.ports = s.connection.ports) :
      CallStep s argument output ⟨c, s.natives⟩ []
  | invoked {c : Connection} {p : ℕ} {m : Method} {t t' : System} {made : List Output}
      (h : s.connection.call argument output = some c) (htarget : s.connection.target argument output = some (p, .ok m))
      (hport : s.port p = some t) (hstep : system.step t (.js (.invoke m)) = some (t', made))
      (hports : c.ports = s.connection.ports.set p t'.js) :
      CallStep s argument output ⟨c, s.natives.set p t'.native⟩ (made.map (.port p))

theorem call_callStep {argument : Settlement ℕ} {output : Stream.Output} (h : s.call argument output = some (s', out)) :
    CallStep s argument output s' out := by
  unfold Stack.call at h
  split at h
  · cases h
    exact .opened rfl rfl
  · rename_i output' p m hnot htarget
    split at h
    · cases h
    rename_i t hport
    split at h
    · cases h
    rename_i t' made hstep
    cases h
    have hsystem : system.step t (.js (.invoke m)) = some (t', made) := hstep
    have hjs : t.js.step (.invoke m) = some (t'.js, jsOutputs made) := js_step hsystem
    refine .invoked ?_ htarget hport hstep rfl
    unfold Connection.call
    split
    · exact absurd rfl hnot
    · simp only [htarget, (port_parts hport).1, hjs]
  · rename_i hnot hno
    obtain ⟨c, hcall, heq⟩ := Option.map_eq_some_iff.1 h
    cases heq
    refine .answered hcall ?_
    cases call_dialed hcall with
    | opened houtput => exact absurd houtput hnot
    | answered hports => exact hports
    | invoked _ htarget => exact absurd htarget (hno _ _)

theorem target_ports {c c' : Connection} (h : c'.ports = c.ports) (argument : Settlement ℕ) (output : Stream.Output) :
    c'.target argument output = c.target argument output := by
  cases output with
  | bindingCancel =>
    show some (c'.ports.length - 1, _) = _
    rw [h]
    rfl
  | _ => rfl

theorem stack_stackStep {i : Stack.Input} (h : stack.step s i = some (s', out)) : StackStep s i s' out := by
  cases i with
  | stream input argument =>
    obtain ⟨hadmits, h⟩ := Option.ite_none_right_eq_some.1 (show (if s.connection.admits input then _ else none) = _ from h)
    split at h
    · cases h
    rename_i stream made hstream
    have hconnection {c : Connection}
        (hcalls : made.foldlM (Connection.call · argument) { s.connection.spent input with stream := stream } = some c) :
        s.connection.step (.stream input argument) = some (c, made) := by
      simp only [Connection.step, hadmits, if_true, hstream, hcalls, Option.map_some]
    rcases Stream.SerialPortStream.step_calls hstream with hnoted | ⟨output, kind, rest, rfl, htodo, rfl, -, -⟩
    · rw [calls_noted hnoted] at h
      cases h
      exact .stream (hconnection (foldlM_noted hnoted _ _)) (spent_parts _ input).1
    · obtain ⟨out', hcall, rfl⟩ := calls_one h
      have hone {c : Connection} (hcall : Connection.call { s.connection with stream := stream } argument output = some c) :
          s.connection.step (.stream .proceed argument) = some (c, [output]) := by
        refine hconnection ?_
        simp only [List.foldlM_cons, List.foldlM_nil, bind_pure]
        exact hcall
      cases call_callStep hcall with
      | opened hc hports => exact .opened (hone hc) hports
      | answered hc hports => exact .stream (hone hc) hports
      | @invoked c p m t t' made hc htarget hport hstep hports =>
        exact .invoked (hone hc) htodo ((target_ports rfl argument output).symm.trans htarget) hport hstep hports
  | port p input =>
    obtain ⟨hturns, h⟩ := Option.ite_none_right_eq_some.1 (show (if s.turns input then _ else none) = _ from h)
    split at h
    · cases h
    rename_i t hport
    split at h
    · cases h
    rename_i t' made hstep
    have hconnection {j : Binding.Input} (hj : s.connection.turns j = true)
        (hjs : t.js.step j = some (t'.js, jsOutputs made)) :
        s.connection.step (.port p j) = some (s.connection.receive p t'.js (jsOutputs made), []) := by
      simp only [Connection.step, hj, if_true, (port_parts hport).1, hjs]
    have hsystem : system.step t input = some (t', made) := hstep
    cases input with
    | native i =>
      cases h
      cases system_step hsystem with
      | native hi hn => exact .native hport rfl (jsOutputs_native _) hsystem
    | js i =>
      cases h
      have hjs : t.js.step i = some (t'.js, jsOutputs made) := js_step hsystem
      refine .port (hconnection hturns hjs) hport hturns hjs (fun m heq => ?_) hsystem
      cases heq
      cases hturns
    | answer =>
      cases h
      cases system_step hsystem with
      | @answer answer call site js jsOut hcall hcalling hjs =>
        have hout : jsOutputs (.answered call answer :: jsOut.map .js) = jsOut := jsOutputs_js jsOut
        rw [← hout] at hjs
        exact .port (hconnection (j := .answer answer) rfl hjs) hport rfl hjs (fun _ heq => by cases heq) hsystem
    | callback allocate =>
      cases h
      cases system_step hsystem with
      | @callback _ event callbacks js jsOut hcallbacks hjs =>
        have hout : jsOutputs (t.completions event ++ jsOut.map .js) = jsOut := by
          rw [jsOutputs_append, completions_js, jsOutputs_js]
          rfl
        rw [← hout] at hjs
        exact .port (hconnection (j := .callback (event.callback allocate)) hturns hjs) hport hturns hjs (fun _ heq => by cases heq) hsystem

/-! ### The connection -/

@[simp] theorem streamOutputs_stream (out : List Stream.Output) : streamOutputs (out.map .stream) = out := by
  have hcomp : Stack.Output.stream? ∘ Stack.Output.stream = some := rfl
  rw [streamOutputs, List.filterMap_map, hcomp, List.filterMap_some]

@[simp] theorem portOutputs_stream (p : ℕ) (out : List Stream.Output) : portOutputs p (out.map .stream) = [] := by
  simp [portOutputs, Stack.Output.port?]

@[simp] theorem streamOutputs_cons_stream (output : Stream.Output) (rest : List Stack.Output) :
    streamOutputs (.stream output :: rest) = output :: streamOutputs rest := rfl

@[simp] theorem portOutputs_cons_stream (p : ℕ) (output : Stream.Output) (rest : List Stack.Output) :
    portOutputs p (.stream output :: rest) = portOutputs p rest := rfl

theorem StackStep.connection {i : Stack.Input} (h : StackStep s i s' out) :
    (∃ j, connection.step s.connection j = some (s'.connection, streamOutputs out)) ∨
      s'.connection = s.connection ∧ streamOutputs out = [] := by
  cases h with
  | stream h | opened h =>
    rw [streamOutputs_stream]
    exact .inl ⟨.stream _ _, h⟩
  | invoked h =>
    rw [streamOutputs_cons_stream, streamOutputs_port]
    exact .inl ⟨.stream _ _, h⟩
  | port h =>
    rw [streamOutputs_port]
    exact .inl ⟨.port _ _, h⟩
  | native => exact .inr ⟨rfl, streamOutputs_port _ _⟩

/-- **A run of the stack is a run of its connection.** -/
theorem run_connection {s₀ : Stack} {inputs : List Stack.Input} (hrun : stack.run s₀ inputs = some (s, outputs)) :
    ∃ inputs', connection.run s₀.connection inputs' = some (s.connection, streamOutputs outputs) := by
  refine Machine.run_rule_all (fun _ outputs (s : Stack) =>
    ∃ inputs', connection.run s₀.connection inputs' = some (s.connection, streamOutputs outputs)) ⟨[], rfl⟩ ?_ hrun
  rintro - outputs s i s' out ⟨inputs', hrun⟩ hstep
  rw [streamOutputs_append]
  rcases (stack_stackStep hstep).connection with ⟨j, hj⟩ | ⟨hsame, hnil⟩
  · exact ⟨inputs' ++ [j], Machine.run_append hrun (Machine.run_singleton hj)⟩
  · rw [hsame, hnil, List.append_nil]
    exact ⟨inputs', hrun⟩

/-! ### The ports -/

/-- Every port has its native side. -/
def Stack.Paired (s : Stack) : Prop := s.natives.length = s.connection.ports.length

theorem port_none (h : s.Paired) {p : ℕ} : s.port p = none ↔ s.connection.ports.length ≤ p := by
  unfold Stack.port
  rcases Nat.lt_or_ge p s.connection.ports.length with hlt | hge
  · rw [List.getElem?_eq_getElem hlt, List.getElem?_eq_getElem (show p < s.natives.length from h ▸ hlt)]
    exact ⟨fun heq => (nomatch heq), fun hle => absurd hlt (Nat.not_lt.2 hle)⟩
  · rw [List.getElem?_eq_none hge]
    exact iff_of_true rfl hge

theorem port_lt {p : ℕ} {t : System} (h : s.port p = some t) : p < s.connection.ports.length :=
  (List.getElem?_eq_some_iff.1 (port_parts h).1).1

/-- The next call of the stream runs a method of a port. -/
def Stack.Calls (s : Stack) (p : ℕ) (m : Method) : Prop := ∃ argument output kind rest,
  s.connection.stream.todo = .call output kind :: rest ∧ s.connection.target argument output = some (p, .ok m)

/-- **What one step does to a port**: it takes a step of its own, or stands still, or is made. -/
inductive Turned (path : String) (s s' : Stack) (p : ℕ) (out : List Output) : Prop
  | still (hport : s'.port p = s.port p) (hout : out = [])
  | made (hport : s.port p = none) (hport' : s'.port p = some (System.new path 1)) (hout : out = [])
  | step {t t' : System} {i : Input} (hport : s.port p = some t) (hport' : s'.port p = some t')
      (hstep : system.step t i = some (t', out)) (hcalls : ∀ m, i = .js (.invoke m) → s.Calls p m)

theorem port_set {s s' : Stack} (h : s.Paired) {q : ℕ} {t t' : System} (hport : s.port q = some t)
    (hports : s'.connection.ports = s.connection.ports.set q t'.js) (hnatives : s'.natives = s.natives.set q t'.native) (p : ℕ) :
    s'.port p = if p = q then some t' else s.port p := by
  have hlt := port_lt hport
  unfold Stack.port
  rw [hports, hnatives]
  by_cases hsame : p = q
  · rw [if_pos hsame, hsame, List.getElem?_set_self hlt, List.getElem?_set_self (show q < s.natives.length from h ▸ hlt)]
  · rw [if_neg hsame, List.getElem?_set_ne (Ne.symm hsame), List.getElem?_set_ne (Ne.symm hsame)]

theorem turned_set {s s' : Stack} (h : s.Paired) {q : ℕ} {t t' : System} {i : Input} {made : List Output}
    (hport : s.port q = some t) (hstep : system.step t i = some (t', made))
    (hcalls : ∀ m, i = .js (.invoke m) → s.Calls q m)
    (hports : s'.connection.ports = s.connection.ports.set q t'.js) (hnatives : s'.natives = s.natives.set q t'.native)
    {path : String} (p : ℕ) : Turned path s s' p (portOutputs p (made.map (.port q))) := by
  have hset := port_set h hport hports hnatives p
  by_cases hsame : p = q
  · subst hsame
    rw [portOutputs_self]
    exact .step hport (hset.trans (if_pos rfl)) hstep hcalls
  · exact .still (hset.trans (if_neg hsame)) (portOutputs_other (Ne.symm hsame) _)

theorem call_path {c c' : Connection} {argument : Settlement ℕ} {output : Stream.Output}
    (h : c.call argument output = some c') : c'.path = c.path := by
  unfold Connection.call at h
  split at h
  · cases h
    rfl
  · split at h
    · cases h
      rfl
    · cases h
      rfl
    · split at h
      · cases h
      · split at h
        · cases h
        · cases h
          rfl

theorem spent_path (c : Connection) (input : Stream.Input) : (c.spent input).path = c.path := by
  cases input with
  | settle index result =>
    simp only [Connection.spent]
    split <;> rfl
  | _ => rfl

theorem step_path {c c' : Connection} {i : Connection.Input} {out : List Stream.Output}
    (h : connection.step c i = some (c', out)) : c'.path = c.path := by
  cases i with
  | stream input argument =>
    obtain ⟨-, stream, -, ⟨-, rfl⟩ | ⟨output, kind, rest, rfl, -, rfl, -, hdialed⟩⟩ := stream_dialed h
    · exact spent_path c input
    · obtain ⟨-, h⟩ := Option.ite_none_right_eq_some.1 (show (if c.admits .proceed then _ else none) = _ from h)
      split at h
      · cases h
      obtain ⟨c₁, hcalls, heq⟩ := Option.map_eq_some_iff.1 h
      obtain ⟨rfl, rfl⟩ := Prod.mk.inj heq
      simp only [List.foldlM_cons, List.foldlM_nil, bind_pure] at hcalls
      have hpath := call_path hcalls
      exact hpath
  | port p i =>
    obtain ⟨-, h⟩ := Option.ite_none_right_eq_some.1 (show (if c.turns i then _ else none) = _ from h)
    split at h
    · cases h
    split at h
    · cases h
    cases h
    rfl

/-- **What one step of the stack does to its ports.** -/
theorem StackStep.turned {i : Stack.Input} (h : StackStep s i s' out) (hpaired : s.Paired) :
    s'.Paired ∧ s'.connection.path = s.connection.path ∧ ∀ p, Turned s.connection.path s s' p (portOutputs p out) := by
  have hset {q : ℕ} {t' : System} (hports : s'.connection.ports = s.connection.ports.set q t'.js)
      (hnatives : s'.natives = s.natives.set q t'.native) : s'.Paired := by
    unfold Stack.Paired
    rw [hports, hnatives, List.length_set, List.length_set]
    exact hpaired
  have hpath : s'.connection.path = s.connection.path := by
    rcases h.connection with ⟨j, hj⟩ | ⟨hsame, -⟩
    · exact step_path hj
    · rw [hsame]
  cases h with
  | stream h hports =>
    refine ⟨?_, hpath, fun p => ?_⟩
    · unfold Stack.Paired
      rw [hports]
      exact hpaired
    · refine .still ?_ (portOutputs_stream p _)
      unfold Stack.port
      rw [hports]
  | @opened _ _ c _ h hports =>
    refine ⟨?_, hpath, fun p => ?_⟩
    · unfold Stack.Paired
      rw [hports, List.length_append, List.length_append, hpaired]
      rfl
    rcases Nat.lt_trichotomy p s.connection.ports.length with hlt | heq | hgt
    · refine .still ?_ (portOutputs_stream p _)
      unfold Stack.port
      rw [hports, List.getElem?_append_left hlt, List.getElem?_append_left (show p < s.natives.length from hpaired ▸ hlt)]
    · refine .made ((port_none hpaired).2 heq.ge) ?_ (portOutputs_stream p _)
      unfold Stack.port
      rw [hports, heq, List.getElem?_concat_length, ← hpaired, List.getElem?_concat_length]
      rfl
    · refine .still ?_ (portOutputs_stream p _)
      have hpaired' : Stack.Paired ⟨c, s.natives ++ [({} : NativePort)]⟩ := by
        unfold Stack.Paired
        rw [hports, List.length_append, List.length_append, hpaired]
        rfl
      rw [(port_none hpaired).2 hgt.le, port_none hpaired']
      show c.ports.length ≤ p
      rw [hports, List.length_append]
      exact hgt
  | invoked h htodo htarget hport hstep hports =>
    refine ⟨hset hports rfl, hpath, fun p => ?_⟩
    rw [portOutputs_cons_stream]
    refine turned_set hpaired hport hstep (fun m' heq => ?_) hports rfl p
    obtain rfl : _ = m' := Binding.Input.invoke.inj (Input.js.inj heq)
    exact ⟨_, _, _, _, htodo, htarget⟩
  | port h hport hturns hjs hi hstep =>
    exact ⟨hset rfl rfl, hpath, fun p => turned_set hpaired hport hstep (fun m heq => absurd heq (hi m)) rfl rfl p⟩
  | @native q i t t' made hport hjs hpassed hstep =>
    have hports : s.connection.ports = s.connection.ports.set q t'.js := by
      rw [hjs]
      obtain ⟨hlt, hget⟩ := List.getElem?_eq_some_iff.1 (port_parts hport).1
      rw [← hget, List.set_getElem_self]
    refine ⟨hset hports rfl, hpath, fun p => ?_⟩
    refine turned_set hpaired hport hstep nofun ?_ rfl p
    exact hports

/-- **A run of the stack is a run of each of its ports.** -/
structure Ported (path : String) (outputs : List Stack.Output) (s : Stack) : Prop where
  paired : s.Paired
  path_eq : s.connection.path = path
  none : ∀ p, s.port p = none → portOutputs p outputs = []
  run : ∀ p t, s.port p = some t → ∃ inputs, system.run (System.new path 1) inputs = some (t, portOutputs p outputs)

theorem Ported.start (path : String) (endOnClose : Bool) (highWaterMark : ℕ) (baudRate : Option ℕ) :
    Ported path [] (.new path endOnClose highWaterMark baudRate) :=
  ⟨rfl, rfl, fun _ _ => rfl, fun _ _ hport => nomatch hport⟩

theorem Ported.step {path : String} (h : Ported path outputs s) {i : Stack.Input} (hstep : stack.step s i = some (s', out)) :
    Ported path (outputs ++ out) s' := by
  obtain ⟨hpaired, hpath, hturned⟩ := (stack_stackStep hstep).turned h.paired
  rw [h.path_eq] at hpath hturned
  refine ⟨hpaired, hpath, fun p hport => ?_, fun p t hport => ?_⟩
  · rw [portOutputs_append]
    cases hturned p with
    | still hsame hout => rw [hout, h.none p (hsame.symm.trans hport)]; rfl
    | made _ hport' => exact nomatch hport'.symm.trans hport
    | step _ hport' => exact nomatch hport'.symm.trans hport
  · rw [portOutputs_append]
    cases hturned p with
    | still hsame hout =>
      rw [hout, List.append_nil]
      exact h.run p t (hsame.symm.trans hport)
    | made hnone hport' hout =>
      rw [hout, h.none p hnone]
      cases hport'.symm.trans hport
      exact ⟨[], rfl⟩
    | step hold hport' hstep' =>
      cases hport'.symm.trans hport
      obtain ⟨inputs', hrun'⟩ := h.run p _ hold
      exact ⟨inputs' ++ [_], Machine.run_append hrun' (Machine.run_singleton hstep')⟩

theorem inRange_one : Binding.BindingPort.InRange 1 := ⟨Nat.one_pos, by decide⟩

/-- No callback queue is torn down. -/
def Stack.Untorn (s : Stack) : Prop := ∀ p t, s.port p = some t → t.native.teardown = false

theorem Ported.untorn {path : String} (h : Ported path outputs s) {i : Stack.Input} (hstep : stack.step s i = some (s', out))
    (hs : s'.Untorn) : s.Untorn := by
  intro p t hport
  have hattuned : Attuned t := by
    obtain ⟨inputs, hrun⟩ := h.run p t hport
    exact Machine.run_invariant Attuned (fun _ _ _ _ hattuned => hattuned.step) (.start path inRange_one) hrun
  cases ((stack_stackStep hstep).turned h.paired).2.2 p with
  | still hsame => exact hs p t (hsame.trans hport)
  | made hnone => exact nomatch hnone.symm.trans hport
  | step hold hport' hstep' =>
    cases hold.symm.trans hport
    exact step_teardown hattuned hstep' (hs p _ hport')

/-! ### A port of a stream -/

/-- **What a port of a stream keeps**: it is never asked for one chunk. -/
structure Served (outputs : List Output) (t : System) : Prop where
  engaged : Engaged t
  unread : Unread t
  conveyed : Conveyed outputs t

theorem Served.start (path : String) : Served [] (System.new path 1) :=
  ⟨.start path inRange_one, ⟨rfl, nofun⟩, .start path 1⟩

theorem Served.step {t t' : System} {outputs made : List Output} (h : Served outputs t) (hteardown : t.native.teardown = false)
    {i : Input} (hi : ∀ length, i ≠ .js (.invoke (.readChunk length))) (hstep : system.step t i = some (t', made)) :
    Served (outputs ++ made) t' :=
  have hroom := h.engaged.linked.room hteardown
  ⟨h.engaged.step hteardown hstep, h.unread.step h.engaged.linked hroom hi hstep,
    h.conveyed.step h.engaged.linked hroom h.unread hstep⟩

/-! ### The three layers -/

/-- The buffers the ports handed over, port after port. -/
def delivered (n : ℕ) (outputs : List Stack.Output) : List Buffer :=
  (List.range n).flatMap fun p => passed (jsOutputs (portOutputs p outputs))

theorem delivered_congr {n : ℕ} {outputs outputs' : List Stack.Output}
    (h : ∀ p, passed (jsOutputs (portOutputs p outputs')) = passed (jsOutputs (portOutputs p outputs))) :
    delivered n outputs' = delivered n outputs := by
  unfold delivered
  simp only [h]

theorem delivered_still {n : ℕ} (h : ∀ p, passed (jsOutputs (portOutputs p out)) = []) :
    delivered n (outputs ++ out) = delivered n outputs := by
  refine delivered_congr fun p => ?_
  rw [portOutputs_append, jsOutputs_append, Binding.passed_append, h p, List.append_nil]

theorem delivered_succ (n : ℕ) (outputs : List Stack.Output) :
    delivered (n + 1) outputs = delivered n outputs ++ passed (jsOutputs (portOutputs n outputs)) := by
  unfold delivered
  rw [List.range_succ, List.flatMap_append, List.flatMap_singleton]

theorem delivers_port {p : ℕ} {made : List Output} (h : passed (jsOutputs made) = []) (q : ℕ) :
    passed (jsOutputs (portOutputs q (made.map (.port p)))) = [] := by
  by_cases hsame : p = q
  · rw [hsame, portOutputs_self]
    exact h
  · rw [portOutputs_other hsame]
    rfl

/-- **The last port** hands buffers over. -/
theorem delivered_last {p : ℕ} {made : List Output} :
    delivered (p + 1) (outputs ++ made.map (.port p)) = delivered (p + 1) outputs ++ passed (jsOutputs made) := by
  rw [delivered_succ, delivered_succ, portOutputs_append, portOutputs_self, jsOutputs_append, Binding.passed_append,
    ← List.append_assoc]
  refine congrArg (· ++ _ ++ _) ?_
  unfold delivered
  rw [List.flatMap_congr]
  intro q hq
  rw [portOutputs_append, portOutputs_other (Nat.ne_of_gt (List.mem_range.1 hq)), List.append_nil]

/-- **The invariant of the stack.** -/
structure Whole (outputs : List Stack.Output) (s : Stack) : Prop where
  steered : Steered s.connection
  unread : Stream.Unread s.connection.stream
  served : ∀ p t, s.port p = some t → Served (portOutputs p outputs) t
  conveys : Stream.pushed (streamOutputs outputs) ++ Stream.pushed s.connection.stream.traffic.due =
    (delivered s.connection.ports.length outputs).flatten

/-! ### Steps of the stream -/

theorem Whole.advance (h : Whole outputs s) {input : Stream.Input} (hadmits : s.connection.admits input = true)
    {stream : SerialPortStream} {made : List Stream.Output} (hstep : s.connection.stream.step input = some (stream, made)) :
    Stream.Unread stream ∧
      Stream.pushed made ++ Stream.pushed stream.traffic.due = Stream.pushed s.connection.stream.traffic.due := by
  have hguided := h.steered.guided
  have hnone : s.connection.stream.arrived input = none := by
    refine h.unread.arrived fun port data heq => ?_
    rw [heq] at hadmits
    cases hadmits
  have hpushed := (Stream.step_own hguided.sound (by rintro port value rfl; cases hadmits) hstep).step.pushed
  rw [Stream.gained_of_none hnone] at hpushed
  exact ⟨h.unread.step hguided.features hstep, hpushed.trans (List.append_nil _)⟩

theorem stream_result {c c' : Connection} {input : Stream.Input} {argument : Settlement ℕ} {made : List Stream.Output}
    (h : c.step (.stream input argument) = some (c', made)) : c.admits input = true ∧ ∃ stream,
      c.stream.step input = some (stream, made) ∧ c'.stream.promises = stream.promises ∧ c'.stream.traffic = stream.traffic := by
  obtain ⟨hadmits, stream, hstream, ⟨-, rfl⟩ | ⟨output, kind, rest, rfl, -, rfl, -, hdialed⟩⟩ := stream_dialed h
  · exact ⟨hadmits, stream, hstream, rfl, rfl⟩
  · refine ⟨hadmits, stream, hstream, ?_⟩
    cases hdialed with
    | opened => exact ⟨rfl, rfl⟩
    | answered hports hstream' => rw [hstream']; exact ⟨rfl, rfl⟩
    | @invoked p m c₁ c₂ out houtput htarget hc hclient =>
      have hstream' : ((Connection.link { c with stream := stream } output p c₁.promises).receive p c₂ out).stream =
        stream.setOpen p c₂.port.isOpen := hear_hookless (invoke_opened hclient).2.1 p _
      show (Connection.receive _ p c₂ out).stream.promises = _ ∧ (Connection.receive _ p c₂ out).stream.traffic = _
      rw [hstream']
      exact ⟨rfl, rfl⟩

theorem target_chunks {c : Connection} {argument : Settlement ℕ} {output : Stream.Output} {p : ℕ} {length : ℤ}
    (h : c.target argument output = some (p, .ok (.readChunk length))) : ∃ length, output = .readChunk p length := by
  cases output with
  | readChunk port length' =>
    cases h
    exact ⟨length', rfl⟩
  | operation port operation baudRate =>
    obtain ⟨-, hmethod⟩ := Prod.mk.inj (Option.some.inj h)
    cases operation <;> cases argument <;> cases hmethod
  | _ => cases h

theorem Steered.chunkless (h : Steered s.connection) {p : ℕ} {length : ℤ} : ¬s.Calls p (.readChunk length) := by
  rintro ⟨argument, output, kind, rest, htodo, htarget⟩
  obtain ⟨length', rfl⟩ := target_chunks htarget
  cases h.guided.poised with
  | idle hidle =>
    have hno := hidle _ (htodo ▸ List.mem_cons_self)
    cases hno
  | opens htodo' | cancels htodo' | closes htodo' | reads htodo' => exact nomatch htodo.symm.trans htodo'

/-! ### Steps of the ports -/

/-- **What a port hands over is pushed.** -/
theorem Whole.turn (h : Whole outputs s) {p : ℕ} {t : System} (hport : s.port p = some t) {j : Binding.Input}
    (hturns : s.connection.turns j = true) {c' : Client} {made : List Binding.Output}
    (hjs : Binding.client.step t.js j = some (c', made)) (hreopens : ¬Reopens t.js c') :
    Stream.Unread (s.connection.receive p c' made).stream ∧
      Stream.pushed (s.connection.receive p c' made).stream.traffic.due =
        Stream.pushed s.connection.stream.traffic.due ++ (passed made).flatten ∧
      (passed made ≠ [] → p + 1 = s.connection.ports.length) := by
  have hc := (port_parts hport).1
  have hinvoke : ∀ m, j ≠ .invoke m := by
    rintro m rfl
    cases hturns
  rcases h.steered.told hturns hc hjs hreopens with ⟨⟨answer, rfl⟩, hsame⟩ | ⟨htodo, hguided⟩
  · have hsilent := answer_silent hjs
    have hstream : (s.connection.receive p c' made).stream = s.connection.stream.setOpen p c'.port.isOpen :=
      hear_hookless hsilent p _
    rw [hstream, hookless_passed hsilent]
    exact ⟨h.unread, (List.append_nil _).symm, fun hne => absurd rfl hne⟩
  · have hwaits : (s.connection.stream.setOpen p c'.port.isOpen).waits = true := by
      rw [SerialPortStream.waits, show (s.connection.stream.setOpen p c'.port.isOpen).todo = [] from htodo]
      rfl
    have hentered {entry : Stream.Entry} {stream : SerialPortStream}
        (hstep : (s.connection.stream.setOpen p c'.port.isOpen).step (.enter entry) = some (stream, [])) :
        Stream.Unread stream ∧ Stream.pushed stream.traffic.due = Stream.pushed s.connection.stream.traffic.due ++
          ((s.connection.stream.setOpen p c'.port.isOpen).gained (.enter entry)).getD [] :=
      ⟨Stream.Unread.step (s := s.connection.stream.setOpen p c'.port.isOpen) h.unread hguided.features hstep,
        (Stream.step_own hguided.sound (by simp) hstep).step.pushed⟩
    have hheard := turn_heard p (s.connection.stream.setOpen p c'.port.isOpen) hjs
    show Stream.Unread (made.foldl (hear p) _) ∧ Stream.pushed (made.foldl (hear p) _).traffic.due = _ ∧ _
    generalize made.foldl (hear p) (s.connection.stream.setOpen p c'.port.isOpen) = stream at hheard ⊢
    cases hheard with
    | nothing hpassed =>
      rw [hpassed]
      exact ⟨h.unread, (List.append_nil _).symm, fun hne => absurd rfl hne⟩
    | data data hopen hout =>
      subst hout
      have hflows := (h.served p t hport).engaged.flows hjs (show [data] ≠ [] from List.cons_ne_nil _ _)
      obtain ⟨hisOpen, hport'⟩ := h.steered.gains hc hflows htodo
      have hopens : s.connection.stream.ports p = true := by
        rw [h.steered.sync p, hc]
        exact hopen
      have hsame : s.connection.stream.setOpen p c'.port.isOpen = s.connection.stream := by
        refine setOpen_same (hopens.trans ?_)
        rcases (turn_flags hinvoke hjs).2.2.2 with hsame | ⟨hshut, -⟩
        · exact (hsame.trans hopen).symm
        · cases hopen.symm.trans hshut
      have hstep : (s.connection.stream.setOpen p c'.port.isOpen).step (.enter (.onData p data)) =
        some ((s.connection.stream.setOpen p c'.port.isOpen).onData p data, []) := if_pos hwaits
      obtain ⟨hunread, hpushed⟩ := hentered hstep
      have hgained : (s.connection.stream.setOpen p c'.port.isOpen).gained (.enter (.onData p data)) = some data := by
        rw [hsame]
        exact (if_pos hisOpen).trans (if_pos hport')
      rw [hgained] at hpushed
      exact ⟨hunread, hpushed.trans (congrArg _ (List.append_nil data).symm), fun _ => h.steered.last p hport' hopens⟩
    | closed error hpassed =>
      have hstep : (s.connection.stream.setOpen p c'.port.isOpen).step (.enter (.onClose p (error.map .error) false)) =
        some ((s.connection.stream.setOpen p c'.port.isOpen).onClose p (error.map .error), []) := if_pos hwaits
      obtain ⟨hunread, hpushed⟩ := hentered hstep
      rw [Stream.gained_of_none rfl] at hpushed
      rw [hpassed]
      exact ⟨hunread, hpushed, fun hne => absurd rfl hne⟩

/-! ### Runs -/

/-- **Every step of the stack keeps the invariant.** -/
theorem Whole.step (h : Whole outputs s) (hpaired : s.Paired) (hnone : ∀ p, s.port p = none → portOutputs p outputs = [])
    (huntorn : s.Untorn) {i : Stack.Input} (hstep : stack.step s i = some (s', out)) : Whole (outputs ++ out) s' := by
  have hstack := stack_stackStep hstep
  obtain ⟨-, -, hturned⟩ := hstack.turned hpaired
  have hserved : ∀ p t, s'.port p = some t → Served (portOutputs p (outputs ++ out)) t := by
    intro p t' hport'
    rw [portOutputs_append]
    cases hturned p with
    | still hsame hout =>
      rw [hout, List.append_nil]
      exact h.served p t' (hsame.symm.trans hport')
    | made hport hmade hout =>
      rw [hout, hnone p hport]
      cases hmade.symm.trans hport'
      exact .start _
    | step hport hmoved hstep' hcalls =>
      cases hmoved.symm.trans hport'
      exact (h.served p _ hport).step (huntorn p _ hport) (fun length heq => h.steered.chunkless (hcalls _ heq)) hstep'
  -- a step of the stream, in which no port hands anything over
  have hquiet {input : Stream.Input} {argument : Settlement ℕ} {c : Connection} {made : List Stream.Output}
      {natives : List NativePort} (hstep' : s.connection.step (.stream input argument) = some (c, made))
      (hmade : streamOutputs out = made) (hpassed : ∀ p, passed (jsOutputs (portOutputs p out)) = [])
      (hdelivered : delivered c.ports.length outputs = delivered s.connection.ports.length outputs)
      (heq : s' = ⟨c, natives⟩) : Whole (outputs ++ out) s' := by
    subst heq
    obtain ⟨hadmits, stream, hstream, hpromises, htraffic⟩ := stream_result hstep'
    obtain ⟨hunread, hpushed⟩ := h.advance hadmits hstream
    refine ⟨h.steered.stream hstep', fun port length hmem => hunread port length (hpromises ▸ hmem), hserved, ?_⟩
    rw [streamOutputs_append, Stream.pushed_append, hmade, htraffic, List.append_assoc, hpushed, h.conveys,
      delivered_still hpassed, hdelivered]
  cases hstack with
  | stream hstep' hports =>
    refine hquiet hstep' (streamOutputs_stream _) (fun p => ?_) (by rw [hports]) rfl
    rw [portOutputs_stream]
    rfl
  | opened hstep' hports =>
    refine hquiet hstep' (streamOutputs_stream _) (fun p => ?_) ?_ rfl
    · rw [portOutputs_stream]
      rfl
    · rw [hports, List.length_append, List.length_singleton, delivered_succ, hnone _ ((port_none hpaired).2 le_rfl)]
      exact List.append_nil _
  | @invoked argument c output kind rest p m t t' made hstep' htodo htarget hport hsystem hports =>
    have hsilent := hookless_passed (invoke_opened (js_step hsystem)).2.1
    refine hquiet hstep' ?_ (fun q => ?_) (by rw [hports, List.length_set]) rfl
    · rw [streamOutputs_cons_stream, streamOutputs_port]
    · rw [portOutputs_cons_stream]
      exact delivers_port hsilent q
  | @port p i j t t' made hstep' hport hturns hjs hi hsystem =>
    have hreopens := (h.served p t hport).engaged.once.not_reopens hsystem
    obtain ⟨hunread, hpushed, hlast⟩ := h.turn hport hturns hjs hreopens
    refine ⟨h.steered.turn hturns (port_parts hport).1 hjs hreopens, hunread, hserved, ?_⟩
    show Stream.pushed (streamOutputs (outputs ++ made.map (.port p))) ++ _ =
      (delivered (s.connection.ports.set p t'.js).length (outputs ++ made.map (.port p))).flatten
    rw [streamOutputs_append, streamOutputs_port, List.append_nil]
    rw [show (s.receive p t' made).connection.stream = (s.connection.receive p t'.js (jsOutputs made)).stream from rfl,
      hpushed, ← List.append_assoc, h.conveys, List.length_set, ← List.flatten_append]
    by_cases hpassed : passed (jsOutputs made) = []
    · rw [hpassed, List.append_nil, delivered_still (delivers_port hpassed)]
    · rw [← hlast hpassed, delivered_last]
  | @native p i t t' made hport hjs hpassed hsystem =>
    refine ⟨h.steered, h.unread, hserved, ?_⟩
    rw [streamOutputs_append, streamOutputs_port, List.append_nil, delivered_still (delivers_port (by rw [hpassed]; rfl))]
    exact h.conveys

/-- **Every reachable state**, as long as no callback queue is torn down. -/
theorem Whole.run (path : String) (endOnClose : Bool) (highWaterMark : ℕ) (baudRate : Option ℕ) {inputs : List Stack.Input}
    (hrun : stack.run (.new path endOnClose highWaterMark baudRate) inputs = some (s, outputs)) (huntorn : s.Untorn) :
    Whole outputs s := by
  refine (Machine.run_rule_all (fun _ outputs (s : Stack) => Ported path outputs s ∧ (s.Untorn → Whole outputs s)) ?_ ?_
    hrun).2 huntorn
  · refine ⟨.start path endOnClose highWaterMark baudRate, fun _ => ?_⟩
    exact ⟨new_steered path endOnClose highWaterMark baudRate, nofun, fun p t hport => (nomatch hport), rfl⟩
  · rintro inputs outputs s i s' out ⟨hported, h⟩ hstep
    exact ⟨hported.step hstep, fun huntorn' => (h (hported.untorn hstep huntorn')).step hported.paired hported.none
      (hported.untorn hstep huntorn') hstep⟩

/-- **The bytes the application receives are those of the devices.**  Over every run of the stack, as long as no callback
queue is torn down, and whatever else happens meanwhile (opens that fail, ports that close and are opened again, writes,
control calls, failures of the native layer):

* what the stream pushed, or is about to push, is what its ports handed over, port after port, and nothing else;
* what a port handed over is the beginning of what its device returned, in order, unless an event failed to reach
  JavaScript; while it is open, the rest is held by the port or on its way.

So nothing the device of an open port returned is lost, duplicated or reordered in any of the three layers, and what the
port of an earlier connection left behind never gets into a later one. -/
theorem input_conveyed (path : String) (endOnClose : Bool) (highWaterMark : ℕ) (baudRate : Option ℕ)
    (inputs : List Stack.Input) (s : Stack) (outputs : List Stack.Output)
    (hrun : stack.run (.new path endOnClose highWaterMark baudRate) inputs = some (s, outputs)) (huntorn : s.Untorn) :
    Stream.pushed (streamOutputs outputs) ++ Stream.pushed s.connection.stream.traffic.due =
      ((List.range s.connection.ports.length).flatMap fun p => passed (jsOutputs (portOutputs p outputs))).flatten ∧
    ∀ p t, s.port p = some t → t.js.port.failure = none →
      passed (jsOutputs (portOutputs p outputs)) <+: Native.reads (natives (portOutputs p outputs)) ∧
      (¬t.js.Shut → passed (jsOutputs (portOutputs p outputs)) ++ t.js.held ++ t.native.buffered =
        Native.reads (natives (portOutputs p outputs))) := by
  have h := Whole.run path endOnClose highWaterMark baudRate hrun huntorn
  refine ⟨h.conveys, fun p t hport hfailure => ?_⟩
  have hconveyed := (h.served p t hport).conveyed
  exact ⟨hconveyed.sub hfailure, hconveyed.fifo hfailure⟩

def onApplication (input : Stream.Input) : Stack.Input := .stream input (.ok 0)

/-- The stream opens its port and reads; the device returns two bytes, then one more. -/
def openAndRead : List Stack.Input :=
  [onApplication (.enter (.open none)), onApplication .proceed, onApplication .returns,
    .port 0 (.native (.reactor (.opened (.ok ())))), .port 0 (.native (.reactor .run)), .port 0 (.callback fun _ => .ok 2),
    onApplication (.settle 0 (.port 0 true)), onApplication .proceed, onApplication .returns, onApplication .proceed,
    onApplication .proceed, onApplication (.enter (._read 100)), onApplication .proceed,
    .port 0 (.native (.advance .pending)), .port 0 (.native (.advance .pending)), .port 0 (.native (.advance .pending)),
    .port 0 .answer, onApplication .returns, .port 0 (.native (.reactor .run)), .port 0 (.native (.reactor .run)),
    .port 0 (.native (.reactor .received)), .port 0 (.native (.reactor .run)), .port 0 (.native (.reactor .run)),
    .port 0 (.native (.reactor (.transfer (.ready [1, 2]) .pending))), .port 0 (.native (.reactor .run)),
    .port 0 (.native (.reactor .run)), .port 0 (.callback fun _ => .ok 2), .port 0 (.js .microtask), onApplication .proceed,
    .port 0 (.native (.reactor .run)), .port 0 (.native (.reactor .run)),
    .port 0 (.native (.reactor (.transfer (.ready [3]) .pending))), .port 0 (.native (.reactor .run))]

/-- The first two bytes have been pushed, the third is on its way. -/
theorem input_conveyed_reading : ∃ s outputs,
    stack.run (.new "/dev/ttyS0" false 65536 none) openAndRead = some (s, outputs) ∧
    Stream.pushed (streamOutputs outputs) = [1, 2] ∧ Native.reads (natives (portOutputs 0 outputs)) = [[1, 2], [3]] ∧
    passed (jsOutputs (portOutputs 0 outputs)) <+: Native.reads (natives (portOutputs 0 outputs)) := by
  obtain ⟨s, outputs, t, hrun, huntorn, hpushed, hreads, hport, hfailure⟩ : ∃ s outputs t,
      stack.run (.new "/dev/ttyS0" false 65536 none) openAndRead = some (s, outputs) ∧ s.Untorn ∧
      Stream.pushed (streamOutputs outputs) = [1, 2] ∧ Native.reads (natives (portOutputs 0 outputs)) = [[1, 2], [3]] ∧
      s.port 0 = some t ∧ t.js.port.failure = none := by
    refine ⟨_, _, _, rfl, ?_, by rfl, by rfl, rfl, rfl⟩
    intro p t hport
    cases p with
    | zero =>
      cases hport
      rfl
    | succ p => cases hport
  have h := input_conveyed "/dev/ttyS0" false 65536 none openAndRead s outputs hrun huntorn
  exact ⟨s, outputs, hrun, hpushed, hreads, (h.2 0 t hport hfailure).1⟩

end NodeSerialport.Composition
