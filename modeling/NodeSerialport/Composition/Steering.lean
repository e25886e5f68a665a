import NodeSerialport.Binding.Flow
import NodeSerialport.Composition.Load
import NodeSerialport.Stream.Guided
/-!
# The port that is read is the one the stream has

A port that was asked for its data, and is open, is the present port of the stream, which is not closing: what the port
hands to its listener is pushed, and nothing is dropped.

* `Flows` — a port that hands its data over;
* `Steered` — the invariant of the stream and its ports;
* `Advanced` — a step of the stream, before the call it makes;
* `Steered.advance`, `Steered.call`, `Steered.turn` — a step of the stream, its call, a step of a port;
* `Reopens` — a step in which a port that was opened once is opened again;
* `Heard` — what the stream makes of the outputs of a port.
-/

namespace NodeSerialport.Composition

open Parsers (Buffer)
open Lib (Machine)
open Binding (Client Method Settlement NativeEvent passed FlagStep)
open Binding.Client (Firm FlowStep LifeStep)
open NodeSerialport.Stream (SerialPortStream Guided Placed Held Poised Idle Steers Promise Result)

/-- **A port that was asked for its data, and is open.** -/
structure Flows (c : Client) : Prop where
  streaming : c.port.streaming = true
  isOpen : c.port.isOpen = true

/-- **The stream and its ports.** -/
structure Steered (s : Connection) : Prop where
  guided : Guided s.stream
  sync : ∀ p, s.stream.ports p = s.ports[p]?.any (·.port.isOpen)
  /-- A port that is being opened was not handed over. -/
  known : ∀ p, s.stream.port = some p ∨ 0 < s.stream.awaits p →
    p + (if s.stream.opening then 1 else 0) < s.ports.length + s.stream.dials
  opened : ∀ p c, s.ports[p]? = some c → s.stream.port = some p ∨ c.port.streaming = true → c.port.opened.isSome = true
  last : ∀ p, s.stream.port = some p → s.stream.ports p = true → p + 1 = s.ports.length
  flows : ∀ p c, s.ports[p]? = some c → Flows c → c.port.closing = false ∧ Placed p s.stream

variable {s s' : Connection}

/-! ### Steps of the stream -/

theorem step_due {stream stream' : SerialPortStream} {input : Stream.Input} {output : Stream.Output} {kind : Stream.Kind}
    {rest : List Stream.Task} {out : List Stream.Output} (htodo : stream.todo = .call output kind :: rest)
    (hstep : stream.step input = some (stream', out)) : out = [output] := by
  cases Stream.SerialPortStream.step_runs hstep with
  | enter hwaits =>
    rw [SerialPortStream.waits, htodo] at hwaits
    cases hwaits
  | returns htodo' => cases htodo.symm.trans htodo'
  | throws reason htodo' => cases htodo.symm.trans htodo'
  | proceed htodo' htask =>
    obtain ⟨rfl, rfl⟩ := List.cons.inj (htodo.symm.trans htodo')
    cases htask
    rfl
  | settle htodo' => cases htodo.symm.trans htodo'
  | tick htodo' => cases htodo.symm.trans htodo'
  | isOpen hwaits =>
    rw [SerialPortStream.waits, htodo] at hwaits
    cases hwaits

/-- **The stream has taken a step**, and not yet made its call. -/
structure Advanced (s : Connection) (stream : SerialPortStream) (out : List Stream.Output) : Prop where
  guided : Guided stream
  sync : ∀ p, stream.ports p = s.ports[p]?.any (·.port.isOpen)
  known : ∀ p, stream.port = some p ∨ 0 < stream.awaits p →
    p + (if stream.opening then 1 else 0) < s.ports.length + stream.dials + out.countP Stream.Output.dials
  opened : ∀ p c, s.ports[p]? = some c → stream.port = some p ∨ c.port.streaming = true → c.port.opened.isSome = true
  last : ∀ p, stream.port = some p → stream.ports p = true → p + 1 = s.ports.length
  flows : ∀ p c, s.ports[p]? = some c → Flows c → c.port.closing = false ∧ (Placed p stream ∨ out = [.close p])

/-- The port that is handed over is the last one, which has been opened. -/
theorem Steered.handed (h : Steered s) {input : Stream.Input} (hadmits : s.admits input = true) {stream : SerialPortStream}
    {out : List Stream.Output} (hstep : s.stream.step input = some (stream, out)) {p : ℕ} {value : Bool}
    (hhands : input.hands? = some (p, value)) : ∃ c, s.ports[p]? = some c ∧ c.port.opened.isSome = true ∧
      value = c.port.isOpen ∧ p + 1 = s.ports.length ∧ s.stream.todo = [] ∧ s.stream.opening = true := by
  obtain ⟨index, rfl⟩ : ∃ index, input = .settle index (.port p value) := by
    cases input with
    | settle index result =>
      cases result with
      | port p' value' =>
        cases hhands
        exact ⟨index, rfl⟩
      | _ => cases hhands
    | _ => cases hhands
  cases Stream.SerialPortStream.step_runs hstep with
  | @settle _ promise _ _ htodo hpromise hsettled =>
    obtain ⟨cb, rfl⟩ : ∃ cb, promise = .opening cb := by
      cases Stream.SerialPortStream.settled_settles hsettled with
      | opened => exact ⟨_, rfl⟩
    have hopening : s.stream.opening = true := (Stream.openings_erased hpromise h.guided.openings).2
    obtain ⟨-, hany⟩ := Bool.and_eq_true_iff.1 hadmits
    rw [hpromise, Option.any_some] at hany
    cases hlast : s.ports.getLast? with
    | none => simp [Connection.settles, hlast] at hany
    | some c =>
      have hget : s.ports[s.ports.length - 1]? = some c := by rw [← List.getLast?_eq_getElem?, hlast]
      have hpos : 0 < s.ports.length := by
        cases hports : s.ports with
        | nil => rw [hports] at hlast; cases hlast
        | cons => exact Nat.succ_pos _
      simp only [Connection.settles, hlast, Option.bind_some, Option.any_some] at hany
      split at hany
      · rename_i hopened
        obtain ⟨rfl, rfl⟩ := Result.port.inj (of_decide_eq_true hany)
        exact ⟨c, hget, by rw [hopened]; rfl, rfl, by omega, htodo, hopening⟩
      · cases of_decide_eq_true hany
      · cases hany

/-- **The stream takes a step.** -/
theorem Steered.advance (h : Steered s) {input : Stream.Input} (hadmits : s.admits input = true) {stream : SerialPortStream}
    {out : List Stream.Output} (hstep : s.stream.step input = some (stream, out)) : Advanced s stream out := by
  have hown : input.own = true := by
    cases input with
    | enter entry =>
      cases entry with
      | onClose => cases hadmits
      | _ => rfl
    | isOpen => cases hadmits
    | _ => rfl
  have hfresh : s.stream.Fresh input := by
    cases hhands : input.hands? with
    | none =>
      cases input with
      | settle index result =>
        cases result with
        | port => cases hhands
        | _ => trivial
      | _ => trivial
    | some hand =>
      obtain ⟨p, value⟩ := hand
      obtain ⟨c, -, -, -, hlength, htodo, hopening⟩ := h.handed hadmits hstep hhands
      have hnone : s.stream.awaits p = 0 := by
        by_contra hpos
        have hlt := h.known p (.inr (Nat.pos_of_ne_zero hpos))
        rw [hopening, SerialPortStream.dials, htodo] at hlt
        simp at hlt
        omega
      cases input with
      | settle index result =>
        cases result with
        | port p' value' =>
          cases hhands
          exact hnone
        | _ => cases hhands
      | _ => cases hhands
  have hsteers := h.guided.step hown hfresh hstep
  refine ⟨hsteers.guided, fun p => ?_, fun p hknown => ?_, fun p c hc hflow => ?_, fun p hport hopen => ?_, fun p c hc hflow => ?_⟩
  · rcases hsteers.ports with hsame | ⟨q, value, hhands, -, -, hports⟩
    · rw [hsame]
      exact h.sync p
    · obtain ⟨c, hc, -, rfl, -⟩ := h.handed hadmits hstep hhands
      rw [hports]
      show (if p = q then c.port.isOpen else s.stream.ports p) = _
      split
      · rename_i hsame
        rw [hsame, hc]
        rfl
      · exact h.sync p
  · rcases hsteers.known p hknown with hold | ⟨hopening, hopening', value, hhands⟩
    · have hlt := h.known p hold
      have hdials := hsteers.dials
      omega
    · obtain ⟨c, -, -, -, hlength, -⟩ := h.handed hadmits hstep hhands
      rw [hopening', ← hlength]
      simp only [Bool.false_eq_true, if_false]
      omega
  · rcases hflow with hport | hstreaming
    · rcases hsteers.port p hport with hold | ⟨value, hhands⟩
      · exact h.opened p c hc (.inl hold)
      · obtain ⟨c', hc', hopened, -⟩ := h.handed hadmits hstep hhands
        rw [hc] at hc'
        cases hc'
        exact hopened
    · exact h.opened p c hc (.inr hstreaming)
  · rcases hsteers.port p hport with hold | ⟨value, hhands⟩
    · rcases hsteers.ports with hsame | ⟨q, value, hhands, -, hport', -⟩
      · exact h.last p hold (by rw [← hsame]; exact hopen)
      · obtain rfl : q = p := Option.some.inj (hport'.symm.trans hport)
        obtain ⟨c, -, -, -, hlength, -⟩ := h.handed hadmits hstep hhands
        exact hlength
    · obtain ⟨c, -, -, -, hlength, -⟩ := h.handed hadmits hstep hhands
      exact hlength
  · obtain ⟨hclosing, hplaced⟩ := h.flows p c hc hflow
    refine ⟨hclosing, ?_⟩
    rcases hplaced.closes with hno | ⟨kind, rest, htodo⟩
    · refine .inl (hsteers.held p ⟨hplaced.port, ?_, hno⟩)
      rw [h.sync p, hc]
      exact hflow.isOpen
    · exact .inr (step_due htodo hstep)

/-! ### The call of a step -/

/-- What a call comes to. -/
inductive Dialed (s : Connection) (argument : Settlement ℕ) (output : Stream.Output) : Connection → Prop
  | opened (houtput : output = .bindingOpen) : Dialed s argument output { s with ports := s.ports ++ [Client.new s.path 1] }
  | answered {s' : Connection} (hports : s'.ports = s.ports) (hstream : s'.stream = s.stream) (houtput : output ≠ .bindingOpen)
      (htarget : ∀ p m, s.target argument output ≠ some (p, .ok m)) : Dialed s argument output s'
  | invoked {p : ℕ} {m : Method} {c c' : Client} {out : List Binding.Output} (houtput : output ≠ .bindingOpen)
      (htarget : s.target argument output = some (p, .ok m)) (hc : s.ports[p]? = some c)
      (hstep : Binding.client.step c (.invoke m) = some (c', out)) :
      Dialed s argument output ((s.link output p c.promises).receive p c' out)

theorem call_dialed {argument : Settlement ℕ} {output : Stream.Output} (h : s.call argument output = some s') :
    Dialed s argument output s' := by
  unfold Connection.call at h
  split at h
  · cases h
    exact .opened rfl
  · rename_i houtput
    split at h
    · rename_i htarget
      cases h
      refine .answered rfl rfl houtput fun p m heq => ?_
      exact nomatch htarget.symm.trans heq
    · rename_i error htarget
      cases h
      refine .answered rfl rfl houtput fun p m heq => ?_
      exact nomatch htarget.symm.trans heq
    · rename_i p m htarget
      split at h
      · cases h
      · rename_i c hc
        split at h
        · cases h
        · rename_i c' out hclient
          cases h
          exact .invoked houtput htarget hc hclient

theorem target_cancels {argument : Settlement ℕ} {output : Stream.Output} {p : ℕ}
    (h : s.target argument output = some (p, .ok .cancelOpen)) : output = .bindingCancel := by
  cases output with
  | bindingCancel => rfl
  | operation port operation baudRate =>
    obtain ⟨-, hmethod⟩ := Prod.mk.inj (Option.some.inj h)
    cases operation <;> cases argument <;> cases hmethod
  | _ => cases h

theorem target_reads {argument : Settlement ℕ} {output : Stream.Output} {p : ℕ} {length : ℤ}
    (h : s.target argument output = some (p, .ok (.startReading length))) : ∃ length, output = .startReading p length := by
  cases output with
  | startReading port length' =>
    cases h
    exact ⟨length', rfl⟩
  | operation port operation baudRate =>
    obtain ⟨-, hmethod⟩ := Prod.mk.inj (Option.some.inj h)
    cases operation <;> cases argument <;> cases hmethod
  | _ => cases h

/-- **A step of the stream**: it makes a call, or none. -/
theorem stream_dialed {input : Stream.Input} {argument : Settlement ℕ} {out : List Stream.Output}
    (h : s.step (.stream input argument) = some (s', out)) : s.admits input = true ∧
    ∃ stream, s.stream.step input = some (stream, out) ∧
      ((∀ output ∈ out, output.noted) ∧ s' = { s.spent input with stream := stream } ∨
      ∃ output kind rest, input = .proceed ∧ s.stream.todo = .call output kind :: rest ∧ out = [output] ∧
        stream.todo = .outside kind :: rest ∧ Dialed { s with stream := stream } argument output s') := by
  obtain ⟨hadmits, h⟩ := Option.ite_none_right_eq_some.1 (show (if s.admits input then _ else none) = _ from h)
  split at h
  · cases h
  rename_i stream out' hstream
  obtain ⟨s₁, hcalls, heq⟩ := Option.map_eq_some_iff.1 h
  obtain ⟨rfl, rfl⟩ := Prod.mk.inj heq
  refine ⟨hadmits, stream, hstream, ?_⟩
  rcases Stream.SerialPortStream.step_calls hstream with hnoted | ⟨output, kind, rest, rfl, htodo, rfl, htodo', -⟩
  · rw [foldlM_noted hnoted] at hcalls
    cases hcalls
    exact .inl ⟨hnoted, rfl⟩
  · simp only [List.foldlM_cons, List.foldlM_nil, bind_pure] at hcalls
    exact .inr ⟨output, kind, rest, rfl, htodo, rfl, htodo', call_dialed hcalls⟩

theorem setOpen_same {stream : SerialPortStream} {p : ℕ} {value : Bool} (h : stream.ports p = value) :
    stream.setOpen p value = stream := by
  have hports : (fun other => if other = p then value else stream.ports other) = stream.ports := by
    funext other
    split
    · rename_i hsame
      rw [hsame, h]
    · rfl
  unfold SerialPortStream.setOpen
  rw [hports]

theorem hear_hookless {out : List Binding.Output} (h : ∀ output ∈ out, output.hooks = false) (p : ℕ)
    (stream : SerialPortStream) : out.foldl (hear p) stream = stream := by
  induction out with
  | nil => rfl
  | cons output out ih =>
    have hone : hear p stream output = stream := by
      have hhooks := h output List.mem_cons_self
      cases output with
      | data | onClose => cases hhooks
      | _ => rfl
    rw [List.foldl_cons, hone]
    exact ih fun output hmem => h output (List.mem_cons_of_mem _ hmem)

theorem invoke_flags {c c' : Client} {m : Method} {out : List Binding.Output}
    (hstep : Binding.client.step c (.invoke m) = some (c', out)) :
    (c'.port.isOpen = true → c.port.isOpen = true) ∧
    (Flows c' → c'.port.closing = c.port.closing ∧ Flows c ∨ m = .cancelOpen ∧ Flows c ∨
      c'.port.closing = false ∧ ∃ length, m = .startReading length) ∧
    (m = .close → c.port.closing = false → c'.port.isOpen = false) := by
  have hlife := Client.step_lifeStep hstep
  have hflow := Client.step_flowStep hstep
  have hsame (h : c'.port.life = c.port.life) : c'.port.isOpen = c.port.isOpen ∧ c'.port.closing = c.port.closing :=
    ⟨congrArg Binding.Life.isOpen h, congrArg Binding.Life.closing h⟩
  refine ⟨fun hopen => ?_, fun hflows => ?_, fun hclose hclosing => ?_⟩
  · cases hlife with
    | kept h => exact (hsame h.life).1 ▸ hopen
    | closed hopen' => exact hopen'
    | canceled life =>
      have hsame : c'.port.isOpen = c.port.isOpen := congrArg Binding.Life.isOpen life
      exact hsame ▸ hopen
  · cases hlife with
    | kept h =>
      obtain ⟨hopen, hclosing⟩ := hsame h.life
      cases hflow with
      | firm hfirm => exact .inl ⟨hclosing, hfirm.streaming ▸ hflows.streaming, hopen ▸ hflows.isOpen⟩
      | asked _ hno => exact .inr (.inr ⟨hclosing.trans hno, _, rfl⟩)
      | passed data hi => rcases hi with hi | hi <;> cases hi
    | closed hopen hclosing life =>
      have hshut : c'.port.isOpen = false := congrArg Binding.Life.isOpen life
      exact absurd (hshut.symm.trans hflows.isOpen) Bool.false_ne_true
    | canceled life =>
      have hopen : c'.port.isOpen = c.port.isOpen := congrArg Binding.Life.isOpen life
      cases hflow with
      | firm hfirm => exact .inr (.inl ⟨rfl, hfirm.streaming ▸ hflows.streaming, hopen ▸ hflows.isOpen⟩)
      | passed data hi => rcases hi with hi | hi <;> cases hi
  · subst hclose
    cases hlife with
    | kept h _ hrefused =>
      rcases hrefused rfl with hshut | hyes
      · exact (hsame h.life).1.trans hshut
      · exact absurd (hclosing.symm.trans hyes) Bool.false_ne_true
    | closed hopen hclosing life => exact congrArg Binding.Life.isOpen life

theorem invoke_opened {c c' : Client} {m : Method} {out : List Binding.Output}
    (hstep : Binding.client.step c (.invoke m) = some (c', out)) :
    c'.port.opened = c.port.opened ∧ (∀ output ∈ out, output.hooks = false) ∧
      (c'.port.streaming = true → c.port.streaming = true ∨ ∃ length, m = .startReading length) := by
  cases Client.step_flowStep hstep with
  | firm h => exact ⟨h.opened, h.silent, fun hs => .inl (h.streaming ▸ hs)⟩
  | asked hopen hclosing streaming opened silent => exact ⟨opened, silent, fun _ => .inr ⟨_, rfl⟩⟩
  | passed data hi => rcases hi with hi | hi <;> cases hi

theorem Advanced.rest {stream : SerialPortStream} {out : List Stream.Output} (h : Advanced s stream out)
    (hdials : out.countP Stream.Output.dials = 0) (hcloses : ∀ p, out ≠ [.close p]) (hstream : s'.stream = stream)
    (hports : s'.ports = s.ports) : Steered s' := by
  refine ⟨?_, fun p => ?_, fun p hknown => ?_, fun p c hc hflow => ?_, fun p hport hopen => ?_, fun p c hc hflow => ?_⟩
  · rw [hstream]
    exact h.guided
  · rw [hstream, hports]
    exact h.sync p
  · rw [hstream] at hknown ⊢
    rw [hports]
    have hlt := h.known p hknown
    omega
  · rw [hports] at hc
    rw [hstream] at hflow
    exact h.opened p c hc hflow
  · rw [hstream] at hport hopen
    rw [hports]
    exact h.last p hport hopen
  · rw [hports] at hc
    rw [hstream]
    exact (h.flows p c hc hflow).imp_right fun hplaced => hplaced.resolve_right (hcloses p)

/-- **`binding.open()`** makes a port that is not open. -/
theorem Advanced.dialed {stream : SerialPortStream} (h : Advanced s stream [.bindingOpen]) (hopening : stream.opening = true)
    (hwaits : stream.waits = true) (path : String) : Steered { s with stream := stream, ports := s.ports ++ [Client.new path 1] } := by
  have hshut (p : ℕ) (hport : stream.port = some p) : stream.ports p = false := by
    have happart := h.guided.sound.apart rfl hopening
    rw [hport] at happart
    exact happart
  have hget {p : ℕ} {c : Client} (hc : (s.ports ++ [Client.new path 1])[p]? = some c) :
      s.ports[p]? = some c ∨ p = s.ports.length ∧ c = Client.new path 1 := by
    rcases Nat.lt_or_ge p s.ports.length with hlt | hge
    · rw [List.getElem?_append_left hlt] at hc
      exact .inl hc
    · rw [List.getElem?_append_right hge] at hc
      rw [List.getElem?_singleton] at hc
      split at hc
      · cases hc
        exact .inr ⟨by omega, rfl⟩
      · cases hc
  refine ⟨h.guided, fun p => ?_, fun p hknown => ?_, fun p c hc hflow => ?_, fun p hport hopen => ?_, fun p c hc hflow => ?_⟩
  · rw [h.sync p]
    show s.ports[p]?.any _ = (s.ports ++ [Client.new path 1])[p]?.any _
    rcases Nat.lt_or_ge p s.ports.length with hlt | hge
    · rw [List.getElem?_append_left hlt]
    · rw [List.getElem?_append_right hge, List.getElem?_eq_none hge, List.getElem?_singleton]
      split <;> rfl
  · have hlt := h.known p hknown
    show p + (if stream.opening then 1 else 0) < (s.ports ++ [Client.new path 1]).length + stream.dials
    rw [List.length_append, List.length_singleton]
    have hone : [Stream.Output.bindingOpen].countP Stream.Output.dials = 1 := rfl
    omega
  · rcases hget hc with hold | ⟨rfl, rfl⟩
    · exact h.opened p c hold hflow
    · rcases hflow with hport | hstreaming
      · -- a port that is being opened was not handed over
        have hlt := h.known _ (.inl hport)
        have hone : [Stream.Output.bindingOpen].countP Stream.Output.dials = 1 := rfl
        have hnone : stream.dials = 0 := (h.guided.poised.waits hwaits).dials
        rw [hopening, hone, hnone] at hlt
        simp at hlt
      · cases hstreaming
  · rw [hshut p hport] at hopen
    cases hopen
  · rcases hget hc with hold | ⟨rfl, rfl⟩
    · exact (h.flows p c hold hflow).imp_right fun hplaced => hplaced.resolve_right nofun
    · exact nomatch hflow.streaming

/-- **A method of a port is called.** -/
theorem Advanced.invoked {stream : SerialPortStream} {output : Stream.Output} (h : Advanced s stream [output])
    (hdials : output.dials = false) (hwaits : stream.waits = true) {p : ℕ} {m : Method}
    (hcloses : ∀ q, output = .close q → q = p ∧ m = .close) {c c' : Client} (hc : s.ports[p]? = some c)
    {out : List Binding.Output} (hstep : Binding.client.step c (.invoke m) = some (c', out))
    (hcancel : m = .cancelOpen → ¬Flows c)
    (hasks : ∀ length, m = .startReading length → stream.port = some p ∧ Placed p stream) {link : Connection}
    (hstream : link.stream = stream) (hports : link.ports = s.ports) : Steered (link.receive p c' out) := by
  obtain ⟨hopens, hflags, hclosed⟩ := invoke_flags hstep
  obtain ⟨hopened, hsilent, hstreaming⟩ := invoke_opened hstep
  have hreceived : (link.receive p c' out).stream = stream.setOpen p c'.port.isOpen := by
    show out.foldl (hear p) (link.stream.setOpen p c'.port.isOpen) = _
    rw [hstream, hear_hookless hsilent]
  have hset : (link.receive p c' out).ports = s.ports.set p c' := by
    show link.ports.set p c' = _
    rw [hports]
  have hlength : (link.receive p c' out).ports.length = s.ports.length := by rw [hset, List.length_set]
  have hlt : p < s.ports.length := (List.getElem?_eq_some_iff.1 hc).1
  have hself : (s.ports.set p c')[p]? = some c' := List.getElem?_set_self hlt
  have hget {q : ℕ} {d : Client} (hd : (link.receive p c' out).ports[q]? = some d) :
      q = p ∧ d = c' ∨ q ≠ p ∧ s.ports[q]? = some d := by
    rw [hset] at hd
    by_cases hsame : q = p
    · subst hsame
      rw [hself] at hd
      cases hd
      exact .inl ⟨rfl, rfl⟩
    · rw [List.getElem?_set_ne (Ne.symm hsame)] at hd
      exact .inr ⟨hsame, hd⟩
  have hvalue : stream.port = some p → stream.opening = true → c'.port.isOpen = false := by
    intro hport hopening
    have happart := h.guided.sound.apart rfl hopening
    rw [hport, Option.any_some, h.sync p, hc] at happart
    cases hopen' : c'.port.isOpen with
    | false => rfl
    | true => exact absurd ((hopens hopen').symm.trans happart) nofun
  refine ⟨?_, fun q => ?_, fun q hknown => ?_, fun q d hd hflow => ?_, fun q hport hopen => ?_, fun q d hd hflow => ?_⟩
  · rw [hreceived]
    exact h.guided.setOpen hwaits hvalue
  · rw [hreceived, hset]
    show (if q = p then c'.port.isOpen else stream.ports q) = _
    by_cases hsame : q = p
    · subst hsame
      rw [hself, if_pos rfl]
      rfl
    · rw [if_neg hsame, List.getElem?_set_ne (Ne.symm hsame)]
      exact h.sync q
  · rw [hreceived] at hknown ⊢
    rw [hlength]
    have hlt := h.known q hknown
    rw [List.countP_singleton, hdials] at hlt
    exact hlt
  · rw [hreceived] at hflow
    rcases hget hd with ⟨rfl, rfl⟩ | ⟨-, hold⟩
    · rw [hopened]
      rcases hflow with hport | hs
      · exact h.opened q c hc (.inl hport)
      · rcases hstreaming hs with hold | ⟨length, hm⟩
        · exact h.opened q c hc (.inr hold)
        · exact h.opened q c hc (.inl (hasks length hm).1)
    · exact h.opened q d hold hflow
  · rw [hreceived] at hport hopen
    rw [hlength]
    by_cases hsame : q = p
    · subst hsame
      have hopen' : c'.port.isOpen = true := (if_pos rfl).symm.trans hopen
      refine h.last q hport ?_
      rw [h.sync q, hc]
      exact hopens hopen'
    · exact h.last q hport ((if_neg hsame).symm.trans hopen)
  · rw [hreceived]
    have hplace {q : ℕ} (hplaced : Placed q stream) : Placed q (stream.setOpen p c'.port.isOpen) := ⟨hplaced.port, hplaced.closes⟩
    rcases hget hd with ⟨rfl, rfl⟩ | ⟨hother, hold⟩
    · rcases hflags hflow with ⟨hclosing, hflows⟩ | ⟨hm, hflows⟩ | ⟨hclosing, length, hm⟩
      · obtain ⟨hno, hplaced⟩ := h.flows q c hc hflows
        refine ⟨hclosing.trans hno, hplace (hplaced.resolve_right fun heq => ?_)⟩
        obtain ⟨-, hm⟩ := hcloses q (List.singleton_inj.1 heq)
        exact absurd ((hclosed hm hno).symm.trans hflow.isOpen) Bool.false_ne_true
      · exact absurd hflows (hcancel hm)
      · exact ⟨hclosing, hplace (hasks length hm).2⟩
    · obtain ⟨hno, hplaced⟩ := h.flows q d hold hflow
      exact ⟨hno, hplace (hplaced.resolve_right fun heq => hother (hcloses q (List.singleton_inj.1 heq)).1)⟩

/-! ### Steps of the stream -/

/-- **The stream takes a step**, and makes its call. -/
theorem Steered.stream (h : Steered s) {input : Stream.Input} {argument : Settlement ℕ} {out : List Stream.Output}
    (hstep : s.step (.stream input argument) = some (s', out)) : Steered s' := by
  obtain ⟨hadmits, stream, hstream, ⟨hnoted, rfl⟩ | ⟨output, kind, rest, rfl, htodo, rfl, htodo', hdialed⟩⟩ := stream_dialed hstep
  · have hadvanced := h.advance hadmits hstream
    refine hadvanced.rest ?_ (fun p heq => ?_) rfl (spent_parts s input).1
    · rw [List.countP_eq_zero]
      intro output hmem
      have hone := hnoted output hmem
      cases output with
      | handed | torn => exact Bool.false_ne_true
      | _ => cases hone
    · have hone := hnoted (.close p) (heq ▸ List.mem_singleton_self _)
      cases hone
  · have hadvanced := h.advance hadmits hstream
    have hwaits : stream.waits = true := by
      rw [SerialPortStream.waits, htodo']
      rfl
    have hpoised := h.guided.poised
    have hflags : stream.opening = s.stream.opening ∧ stream.port = s.stream.port ∧ stream.closing = s.stream.closing := by
      cases Stream.SerialPortStream.step_runs hstream with
      | proceed htodo'' htask =>
        obtain ⟨rfl, rfl⟩ := List.cons.inj (htodo.symm.trans htodo'')
        cases htask
        exact ⟨rfl, rfl, rfl⟩
    cases hdialed with
    | opened houtput =>
      subst houtput
      refine hadvanced.dialed ?_ hwaits s.path
      rw [hflags.1]
      cases hpoised with
      | idle hidle =>
        have hno := hidle _ (htodo ▸ List.mem_cons_self)
        cases hno
      | opens _ _ hopening => exact hopening
      | cancels htodo'' | closes htodo'' | reads htodo'' => cases htodo.symm.trans htodo''
    | answered hports hstream' houtput htarget =>
      refine hadvanced.rest ?_ (fun p heq => ?_) hstream' hports
      · rw [List.countP_singleton]
        cases output with
        | bindingOpen => exact absurd rfl houtput
        | _ => rfl
      · rw [List.singleton_inj.1 heq] at htarget
        exact htarget p .close rfl
    | @invoked p m c c' cout houtput htarget hc hclient =>
      refine hadvanced.invoked (p := p) (m := m) ?_ hwaits (fun q heq => ?_) hc hclient (fun hm hflows => ?_)
        (fun length hm => ?_) rfl rfl
      · cases output with
        | bindingOpen => exact absurd rfl houtput
        | _ => rfl
      · subst heq
        cases htarget
        exact ⟨rfl, rfl⟩
      · obtain rfl : output = .bindingCancel := target_cancels (hm ▸ htarget)
        have hopening : s.stream.opening = true := by
          cases hpoised with
          | idle hidle =>
            have hno := hidle _ (htodo ▸ List.mem_cons_self)
            cases hno
          | cancels _ _ hopening => exact hopening
          | opens htodo'' | closes htodo'' | reads htodo'' => cases htodo.symm.trans htodo''
        obtain ⟨-, hplaced⟩ := h.flows p c hc hflows
        rcases hplaced.closes with hno | ⟨kind', rest', htodo''⟩
        · refine h.guided.not_held hopening p ⟨hplaced.port, ?_, hno⟩
          rw [h.sync p, show s.ports[p]? = some c from hc]
          exact hflows.isOpen
        · cases htodo.symm.trans htodo''
      · obtain ⟨length', rfl⟩ : ∃ length', output = .startReading p length' := target_reads (hm ▸ htarget)
        have hopen : s.stream.openPort = some p := by
          cases hpoised with
          | idle hidle =>
            have hno := hidle _ (htodo ▸ List.mem_cons_self)
            cases hno
          | reads htodo'' _ hopen =>
            cases htodo.symm.trans htodo''
            exact hopen
          | opens htodo'' | closes htodo'' | cancels htodo'' => cases htodo.symm.trans htodo''
        obtain ⟨hisOpen, hport⟩ := Stream.SerialPortStream.openPort_eq_some.1 hopen
        have hclosing : stream.closing = false := by
          rw [hflags.2.2]
          simp [SerialPortStream.isOpen] at hisOpen
          exact hisOpen.2
        exact ⟨hflags.2.1.trans hport, hflags.2.1.trans hport, .inl hclosing⟩

/-! ### Steps of the ports -/

/-- A port that was opened once is opened again. -/
def Reopens (c c' : Client) : Prop := c.port.opened.isSome = true ∧ c.port.isOpen = false ∧ c'.port.isOpen = true

theorem turn_flags {c c' : Client} {input : Binding.Input} {out : List Binding.Output} (hinvoke : ∀ m, input ≠ .invoke m)
    (hstep : Binding.client.step c input = some (c', out)) :
    c'.port.closing = c.port.closing ∧ c'.port.streaming = c.port.streaming ∧
      (c.port.opened.isSome = true → c'.port.opened.isSome = true) ∧
      (c'.port.isOpen = c.port.isOpen ∨ c.port.isOpen = false ∧ c'.port.isOpen = true ∧ ∃ callback, input = .callback callback) := by
  have hlife := Client.step_lifeStep hstep
  have hflow := Client.step_flowStep hstep
  refine ⟨?_, ?_, fun hopened => ?_, ?_⟩
  · cases hlife with
    | kept h => exact congrArg Binding.Life.closing h.life
    | opened _ _ life | finished _ life | released _ life => exact congrArg Binding.Life.closing life
    | closed => exact absurd rfl (hinvoke _)
    | canceled => exact absurd rfl (hinvoke _)
  · cases hflow with
    | firm h => exact h.streaming
    | asked => exact absurd rfl (hinvoke _)
    | opened _ streaming | finished _ _ streaming | passed _ _ _ streaming => exact streaming
  · cases hflow with
    | firm h => rw [h.opened]; exact hopened
    | asked => exact absurd rfl (hinvoke _)
    | opened _ _ opened =>
      rw [opened, Option.isSome_or, hopened]
      rfl
    | finished _ _ _ opened =>
      rw [opened, Option.isSome_or, hopened]
      rfl
    | passed _ _ _ _ opened => rw [opened]; exact hopened
  · cases hlife with
    | kept h => exact .inl (congrArg Binding.Life.isOpen h.life)
    | opened _ _ life =>
      have hopen : c'.port.isOpen = true := congrArg Binding.Life.isOpen life
      cases hold : c.port.isOpen with
      | true => exact .inl hopen
      | false => exact .inr ⟨rfl, hopen, _, rfl⟩
    | finished _ life | released _ life => exact .inl (congrArg Binding.Life.isOpen life)
    | closed => exact absurd rfl (hinvoke _)
    | canceled => exact absurd rfl (hinvoke _)

/-- **What the stream hears of a step of a port**, at most one hook. -/
inductive Heard (p : ℕ) (stream : SerialPortStream) (c : Client) (out : List Binding.Output) : SerialPortStream → Prop
  | nothing (hpassed : passed out = []) : Heard p stream c out stream
  | data (data : Buffer) (hopen : c.port.isOpen = true) (hout : out = [.data data]) :
      Heard p stream c out (stream.onData p data)
  | closed (error : Option Binding.SerialError) (hpassed : passed out = []) :
      Heard p stream c out (stream.onClose p (error.map .error))

theorem hookless_passed {out : List Binding.Output} (h : ∀ output ∈ out, output.hooks = false) : passed out = [] := by
  rw [passed, List.filterMap_eq_nil_iff]
  intro output hmem
  have hhooks := h output hmem
  cases output with
  | data => cases hhooks
  | _ => rfl

theorem turn_heard {c c' : Client} {input : Binding.Input} {out : List Binding.Output} (p : ℕ) (stream : SerialPortStream)
    (hstep : Binding.client.step c input = some (c', out)) : Heard p stream c out (out.foldl (hear p) stream) := by
  have hnothing (hsilent : ∀ output ∈ out, output.hooks = false) : Heard p stream c out (out.foldl (hear p) stream) := by
    rw [hear_hookless hsilent]
    exact .nothing (hookless_passed hsilent)
  cases Client.step_flowStep hstep with
  | firm h => exact hnothing h.silent
  | asked _ _ _ _ silent => exact hnothing silent
  | opened _ _ _ _ silent => exact hnothing silent
  | @finished event _ out result error hkind streaming opened calling silent =>
    rw [List.foldl_append, hear_hookless silent]
    refine .closed error ?_
    rw [Binding.passed_append, hookless_passed silent]
    rfl
  | passed data hi hopen => exact .data data hopen rfl

theorem answer_silent {c c' : Client} {answer : Binding.Answer} {out : List Binding.Output}
    (hstep : Binding.client.step c (.answer answer) = some (c', out)) : ∀ output ∈ out, output.hooks = false := by
  cases Client.step_flowStep hstep with
  | firm h => exact h.silent
  | passed data hi => rcases hi with hi | hi <;> cases hi

/-- What the stream does as it hears of a port. -/
structure Onward (stream stream' : SerialPortStream) : Prop where
  guided : Guided stream'
  ports : stream'.ports = stream.ports
  port : ∀ q, stream'.port = some q → stream.port = some q
  known : ∀ q, stream'.port = some q ∨ 0 < stream'.awaits q → stream.port = some q ∨ 0 < stream.awaits q
  dials : (if stream'.opening then 1 else 0) + stream.dials ≤ (if stream.opening then 1 else 0) + stream'.dials
  placed : ∀ q, Placed q stream → stream.ports q = true → Placed q stream'

theorem Onward.refl {stream : SerialPortStream} (h : Guided stream) : Onward stream stream :=
  ⟨h, rfl, fun _ => id, fun _ => id, le_rfl, fun _ hplaced _ => hplaced⟩

theorem Onward.of_steers {stream stream' : SerialPortStream} {input : Stream.Input} (h : Steers stream input [] stream')
    (hhands : input.hands? = none) (htodo : stream.todo = []) : Onward stream stream' := by
  have hnone {port : ℕ} {value : Bool} (heq : input.hands? = some (port, value)) : False := nomatch hhands.symm.trans heq
  refine ⟨h.guided, ?_, fun q hport => ?_, fun q hknown => ?_, h.dials, fun q hplaced hopen => ?_⟩
  · rcases h.ports with hsame | ⟨port, value, heq, -⟩
    · exact hsame
    · exact (hnone heq).elim
  · rcases h.port q hport with hold | ⟨value, heq⟩
    · exact hold
    · exact (hnone heq).elim
  · rcases h.known q hknown with hold | ⟨-, -, value, heq⟩
    · exact hold
    · exact (hnone heq).elim
  · rcases hplaced.closes with hno | ⟨kind, rest, htodo'⟩
    · exact h.held q ⟨hplaced.port, hopen, hno⟩
    · cases htodo.symm.trans htodo'

/-- **A hook is called**, while the stream waits. -/
theorem Heard.onward {p : ℕ} {stream stream' : SerialPortStream} {c : Client} {out : List Binding.Output}
    (h : Heard p stream c out stream') (hguided : Guided stream) (htodo : stream.todo = []) : Onward stream stream' := by
  have hwaits : stream.waits = true := by
    rw [SerialPortStream.waits, htodo]
    rfl
  cases h with
  | nothing => exact .refl hguided
  | data data =>
    have hstep : stream.step (.enter (.onData p data)) = some (stream.onData p data, []) := if_pos hwaits
    have hsteers : Steers stream (.enter (.onData p data)) [] _ := hguided.step rfl trivial hstep
    exact .of_steers hsteers rfl htodo
  | closed error =>
    have hstep : stream.step (.enter (.onClose p (error.map .error) false)) =
        some (stream.onClose p (error.map .error), []) := if_pos hwaits
    have hsteers : Steers stream (.enter (.onClose p (error.map .error) false)) [] _ := hguided.step rfl trivial hstep
    exact .of_steers hsteers rfl htodo

/-- A port takes a step while the stream is in the middle of something, and answers the native side; or the stream waits,
and is told whether the port is open. -/
theorem Steered.told (h : Steered s) {p : ℕ} {input : Binding.Input} (hturns : s.turns input = true) {c c' : Client}
    (hc : s.ports[p]? = some c) {out : List Binding.Output} (hstep : Binding.client.step c input = some (c', out))
    (hreopens : ¬Reopens c c') :
    (∃ answer, input = .answer answer) ∧ c'.port.isOpen = c.port.isOpen ∨
      s.stream.todo = [] ∧ Guided (s.stream.setOpen p c'.port.isOpen) := by
  have hinvoke : ∀ m, input ≠ .invoke m := by
    rintro m rfl
    cases hturns
  obtain ⟨-, -, -, hisOpen⟩ := turn_flags hinvoke hstep
  have htodo : (∃ answer, input = .answer answer) ∨ s.stream.todo = [] := by
    cases input with
    | invoke m => exact absurd rfl (hinvoke m)
    | answer answer => exact .inl ⟨answer, rfl⟩
    | returns | throws => exact .inr (of_decide_eq_true hturns)
    | callback | microtask | resume => exact .inr (of_decide_eq_true (Bool.and_eq_true_iff.1 hturns).2)
  rcases htodo with ⟨answer, rfl⟩ | htodo
  · rcases hisOpen with hsame | ⟨-, -, callback, heq⟩
    · exact .inl ⟨⟨answer, rfl⟩, hsame⟩
    · cases heq
  · refine .inr ⟨htodo, h.guided.setOpen ?_ fun hport hopening => ?_⟩
    · rw [SerialPortStream.waits, htodo]
      rfl
    · have happart := h.guided.sound.apart rfl hopening
      rw [hport, Option.any_some, h.sync p, hc] at happart
      cases hopen : c'.port.isOpen with
      | false => rfl
      | true => exact absurd ⟨h.opened p c hc (.inl hport), happart, hopen⟩ hreopens

/-- **A port takes a step** that is no call of a method. -/
theorem Steered.turn (h : Steered s) {p : ℕ} {input : Binding.Input} (hturns : s.turns input = true) {c c' : Client}
    (hc : s.ports[p]? = some c) {out : List Binding.Output} (hstep : Binding.client.step c input = some (c', out))
    (hreopens : ¬Reopens c c') : Steered (s.receive p c' out) := by
  have hinvoke : ∀ m, input ≠ .invoke m := by
    rintro m rfl
    cases hturns
  obtain ⟨hclosing, hstreaming, hopened, hisOpen⟩ := turn_flags hinvoke hstep
  have hsync : s.stream.ports p = c.port.isOpen := by
    rw [h.sync p, hc]
    rfl
  have hopens : c.port.opened.isSome = true → c'.port.isOpen = true → c.port.isOpen = true := by
    intro hsome hopen
    by_contra hshut
    exact hreopens ⟨hsome, by simpa using hshut, hopen⟩
  have honward : Onward (s.stream.setOpen p c'.port.isOpen) (s.receive p c' out).stream := by
    rcases h.told hturns hc hstep hreopens with ⟨⟨answer, rfl⟩, hsame⟩ | ⟨htodo, hguided⟩
    · -- the stream may be in the middle of something, and hears nothing
      show Onward _ (out.foldl (hear p) _)
      rw [hear_hookless (answer_silent hstep), setOpen_same (hsync.trans hsame.symm)]
      exact .refl h.guided
    · exact (turn_heard p _ hstep).onward hguided htodo
  have hset : (s.receive p c' out).ports = s.ports.set p c' := rfl
  have hlength : (s.receive p c' out).ports.length = s.ports.length := by rw [hset, List.length_set]
  have hlt : p < s.ports.length := (List.getElem?_eq_some_iff.1 hc).1
  have hself : (s.ports.set p c')[p]? = some c' := List.getElem?_set_self hlt
  have hget {q : ℕ} {d : Client} (hd : (s.receive p c' out).ports[q]? = some d) : q = p ∧ d = c' ∨ q ≠ p ∧ s.ports[q]? = some d := by
    rw [hset] at hd
    by_cases hsame : q = p
    · subst hsame
      rw [hself] at hd
      cases hd
      exact .inl ⟨rfl, rfl⟩
    · rw [List.getElem?_set_ne (Ne.symm hsame)] at hd
      exact .inr ⟨hsame, hd⟩
  have hports (q : ℕ) : (s.receive p c' out).stream.ports q = if q = p then c'.port.isOpen else s.stream.ports q := by
    rw [honward.ports]
    rfl
  refine ⟨honward.guided, fun q => ?_, fun q hknown => ?_, fun q d hd hflow => ?_, fun q hport hopen => ?_, fun q d hd hflow => ?_⟩
  · rw [hports, hset]
    by_cases hsame : q = p
    · subst hsame
      rw [hself, if_pos rfl]
      rfl
    · rw [if_neg hsame, List.getElem?_set_ne (Ne.symm hsame)]
      exact h.sync q
  · have hlt : q + (if s.stream.opening then 1 else 0) < s.ports.length + s.stream.dials := h.known q (honward.known q hknown)
    have hdials : (if (s.receive p c' out).stream.opening then 1 else 0) + s.stream.dials ≤
      (if s.stream.opening then 1 else 0) + (s.receive p c' out).stream.dials := honward.dials
    rw [hlength]
    omega
  · rcases hget hd with ⟨rfl, rfl⟩ | ⟨-, hold⟩
    · exact hopened (h.opened q c hc (hflow.imp (honward.port q) fun hs => hstreaming ▸ hs))
    · exact h.opened q d hold (hflow.imp_left (honward.port q))
  · rw [hlength]
    rw [hports] at hopen
    have hport' : s.stream.port = some q := honward.port q hport
    by_cases hsame : q = p
    · subst hsame
      rw [if_pos rfl] at hopen
      exact h.last q hport' (hsync.trans (hopens (h.opened q c hc (.inl hport')) hopen))
    · rw [if_neg hsame] at hopen
      exact h.last q hport' hopen
  · rcases hget hd with ⟨rfl, rfl⟩ | ⟨hother, hold⟩
    · have hstreaming' : c.port.streaming = true := hstreaming ▸ hflow.streaming
      have hflows : Flows c := ⟨hstreaming', hopens (h.opened q c hc (.inr hstreaming')) hflow.isOpen⟩
      obtain ⟨hno, hplaced⟩ := h.flows q c hc hflows
      refine ⟨hclosing.trans hno, honward.placed q ⟨hplaced.port, hplaced.closes⟩ ?_⟩
      exact (if_pos rfl).trans hflow.isOpen
    · obtain ⟨hno, hplaced⟩ := h.flows q d hold hflow
      refine ⟨hno, honward.placed q ⟨hplaced.port, hplaced.closes⟩ ?_⟩
      show (if q = p then c'.port.isOpen else s.stream.ports q) = true
      rw [if_neg hother, h.sync q, hold]
      exact hflow.isOpen

/-- **What an open port that was asked for its data hands over is pushed next.** -/
theorem Steered.gains (h : Steered s) {p : ℕ} {c : Client} (hc : s.ports[p]? = some c) (hflows : Flows c)
    (htodo : s.stream.todo = []) : s.stream.isOpen = true ∧ s.stream.port = some p := by
  obtain ⟨-, hplaced⟩ := h.flows p c hc hflows
  have hopen : s.stream.ports p = true := by
    rw [h.sync p, hc]
    exact hflows.isOpen
  rcases hplaced.closes with hno | ⟨kind, rest, htodo'⟩
  · exact ⟨by simp [SerialPortStream.isOpen, hplaced.port, hopen, hno], hplaced.port⟩
  · cases htodo.symm.trans htodo'

theorem new_steered (path : String) (endOnClose : Bool) (highWaterMark : ℕ) (baudRate : Option ℕ) :
    Steered (.new path endOnClose highWaterMark baudRate) := by
  refine ⟨Stream.new_guided (fun _ => rfl) _ _ _, fun _ => rfl, fun p hknown => ?_, fun p c hc => ?_, fun p hport => ?_, fun p c hc => ?_⟩
  · rcases hknown with hport | hpos
    · cases hport
    · exact absurd hpos (Nat.lt_irrefl 0)
  · cases hc
  · cases hport
  · cases hc

end NodeSerialport.Composition
