import NodeSerialport.Composition.Connection
import NodeSerialport.Stream.Writes
/-!
# Load and the connection

Where the native layer reports no failure, nobody closes the stream and no part of a write finds the port full, the
connection stays open.  Control calls may be refused all the time.

* `Connection.writes` — the writes whose promises are under way, from the port or back to the stream;
* `Kept`, `Sane`, `Unbroken` — the invariants of the stream, of its calls, and of both with the port;
* `Unbroken.advance`, `Unbroken.call` — a step of the stream, and the call it makes;
* `Unbroken.port_step` — a step of the port;
* `step_unbroken`, `run_unbroken` — steps and runs;
* `load_keeps_open` — the connection stays open;
* `overload_closes` — a write that is refused closes it.
-/

namespace NodeSerialport.Composition

open Parsers (Buffer)
open Lib (Machine)
open Binding (Client Writer Method Methodical Settlement NativeEvent SerialError passed)
open NodeSerialport.Stream (SerialPortStream Promise Result Sound Accounted Attached Undisturbed Stays submissions)

variable {outputs : List Stream.Output} {stream : SerialPortStream}

/-! ### What the stream hears -/

/-- The stream keeps its port, and the account of its writes. -/
structure Kept (outputs : List Stream.Output) (s : SerialPortStream) : Prop where
  sound : Sound false s
  accounted : Accounted outputs s.traffic
  attached : Attached s

theorem hear_quiet {out : List Binding.Output} (hpassed : passed out = [])
    (hquiet : ∀ output ∈ out, output.troubles = false) (port : ℕ) (s : SerialPortStream) :
    out.foldl (hear port) s = s := by
  induction out with
  | nil => rfl
  | cons output out ih =>
    have hdata := List.filterMap_eq_nil_iff.1 hpassed output List.mem_cons_self
    have htroubles := hquiet output List.mem_cons_self
    have hone : hear port s output = s := by
      cases output with
      | data => cases hdata
      | onClose => cases htroubles
      | _ => rfl
    rw [List.foldl_cons, hone]
    refine ih ?_ fun output hmem => hquiet output (List.mem_cons_of_mem _ hmem)
    rw [passed, List.filterMap_eq_nil_iff]
    exact fun output hmem => List.filterMap_eq_nil_iff.1 hpassed output (List.mem_cons_of_mem _ hmem)

theorem Kept.setOpen (h : Kept outputs stream) {port : ℕ} {value : Bool}
    (hvalue : stream.port = some port → value = true) : Kept outputs (stream.setOpen port value) where
  sound := by
    refine ⟨h.sound.orderly, fun _ hopening => ?_, h.sound.doomed⟩
    show stream.port.any _ = false
    rw [h.attached.apart hopening]
    rfl
  accounted := h.accounted
  attached := by
    refine ⟨h.attached.features, h.attached.closing, h.attached.todo, h.attached.promises, fun p hp => ?_,
      h.attached.apart⟩
    show (if p = port then value else stream.ports p) = true
    split
    · rename_i heq
      exact hvalue (heq ▸ hp)
    · exact h.attached.isOpen p hp

/-- **Data, or nothing, is heard.** -/
theorem Kept.hear (h : Kept outputs stream) {port : ℕ} {out : List Binding.Output}
    (hquiet : ∀ output ∈ out, output.troubles = false)
    (hpassed : passed out = [] ∨ stream.todo = [] ∧ ∃ data, out = [.data data]) :
    Kept outputs (out.foldl (hear port) stream) ∧ Undisturbed stream (out.foldl (hear port) stream) := by
  rcases hpassed with hnone | ⟨htodo, data, rfl⟩
  · rw [hear_quiet hnone hquiet]
    exact ⟨h, .refl _⟩
  · have hwaits : stream.waits := by
      unfold SerialPortStream.waits
      rw [htodo]
      rfl
    have hstep : stream.step (.enter (.onData port data)) = some (stream.onData port data, []) := if_pos hwaits
    have hgoes := Stream.step_own h.sound (by simp) hstep
    have haccounted := h.accounted.step hgoes.step
    have hundisturbed := SerialPortStream.onData_undisturbed stream port data
    rw [List.append_nil] at haccounted
    exact ⟨⟨hgoes.sound, haccounted, hundisturbed.attached h.attached⟩, hundisturbed⟩

/-! ### The invariant -/

namespace Connection

/-- The writes a port has yet to settle, or whose end the stream has yet to see. -/
def writes (s : Connection) : List ℕ := (s.calls.map Call.promise ++ s.answers.map Prod.fst).filterMap Promise.write?

end Connection

/-- **The stream, and what is between it and its port.** -/
structure Sane (outputs : List Stream.Output) (s : Connection) : Prop where
  kept : Kept outputs s.stream
  threw : s.threw = none
  /-- One port at most is opened. -/
  dials : s.stream.dials + s.ports.length ≤ if s.stream.engaged then 1 else 0
  port : ∀ port, s.stream.port = some port → port = 0 ∧ ∃ c, s.ports = [c] ∧ c.port.isOpen = true
  submitted : ∀ write ∈ s.writes, write ∈ (submissions outputs).map Prod.fst ∧ write ∈ s.stream.traffic.promised
  distinct : s.writes.Nodup
  answers : ∀ answer ∈ s.answers, answer.1.write?.isSome → ∃ event, answer.2 = .ok event

/-- **The connection is unbroken**: the port is healthy, and its write is the one the stream waits for. -/
structure Unbroken (outputs : List Stream.Output) (s : Connection) (w : Writer) : Prop extends Sane outputs s where
  healthy : ∀ c ∈ s.ports, c.Healthy
  writer : ∀ c ∈ s.ports, c.At w
  methodical : ∀ c ∈ s.ports, Methodical c
  idle : s.ports = [] → w = .idle
  calls : ∀ call ∈ s.calls, call.promise.write?.isSome → call.port = 0 ∧ w.method? = some call.method
  busy : ∀ method, w.method? = some method → ∃ call ∈ s.calls, call.promise.write?.isSome ∧ call.method = method

/-- What a step comes to: the connection is unbroken, and the port is still the same. -/
structure Continues (outputs : List Stream.Output) (s s' : Connection) : Prop where
  unbroken : ∃ w, Unbroken outputs s' w
  port : ∀ port, s.stream.port = some port → s'.stream.port = some port

variable {s s' : Connection} {w w' : Writer}

theorem Unbroken.continues (h : Unbroken outputs s' w) (hport : s'.stream.port = s.stream.port) :
    Continues outputs s s' :=
  ⟨⟨w, h⟩, fun _ hold => hport.trans hold⟩

theorem Sane.alone (h : Sane outputs s) {port : ℕ} {c : Client} (hport : s.ports[port]? = some c) :
    port = 0 ∧ s.ports = [c] := by
  have hlength : s.ports.length ≤ 1 := by
    have hdials := h.dials
    split at hdials <;> omega
  match hports : s.ports with
  | [] =>
    rw [hports] at hport
    cases hport
  | [c₁] =>
    rw [hports] at hport
    cases port with
    | zero =>
      cases hport
      exact ⟨rfl, rfl⟩
    | succ port => cases hport
  | c₁ :: c₂ :: rest =>
    rw [hports] at hlength
    exact absurd hlength (by simp)

/-! ### What a port tells -/

theorem Call.result?_eq_some {call : Call} {port : ℕ} {out : List Binding.Output}
    {result : Settlement (Option NativeEvent)} (h : call.result? port out = some result) :
    call.port = port ∧ .returned call.method result ∈ out := by
  obtain ⟨hport, hfind⟩ := Option.ite_none_right_eq_some.1 h
  obtain ⟨output, hmem, hreturned⟩ := List.exists_of_findSome?_eq_some hfind
  cases output with
  | returned m r =>
    obtain ⟨rfl, heq⟩ := Option.ite_none_right_eq_some.1
      (show (if m = call.method then some r else none) = some result from hreturned)
    cases heq
    exact ⟨hport, hmem⟩
  | _ => cases hreturned

theorem Call.result?_eq_none {call : Call} {port : ℕ} {out : List Binding.Output} (h : call.result? port out = none)
    (hport : call.port = port) (result : Settlement (Option NativeEvent)) : .returned call.method result ∉ out := by
  intro hmem
  have hfind : out.findSome? (returned? call.method) = none := (if_pos hport).symm.trans h
  have hnone := List.findSome?_eq_none_iff.1 hfind _ hmem
  exact absurd ((if_pos rfl).symm.trans hnone) nofun

theorem perm_parted {α β γ : Type*} (f : α → Option β) (g : α → γ) (l : List α) :
    ((l.filter fun a => (f a).isNone).map g ++
      (l.filterMap fun a => (f a).map (g a, ·)).map Prod.fst).Perm (l.map g) := by
  induction l with
  | nil => exact .nil
  | cons a l ih =>
    cases hf : f a with
    | none => simpa [hf] using ih
    | some b => simpa [hf] using List.perm_middle.trans (ih.cons (g a))

theorem receive_writes (s : Connection) (port : ℕ) (c : Client) (out : List Binding.Output) :
    (s.receive port c out).writes.Perm s.writes := by
  refine List.Perm.filterMap _ ?_
  have hparted := perm_parted (fun call : Call => call.result? port out) Call.promise s.calls
  show ((s.calls.filter fun call => (call.result? port out).isNone).map Call.promise ++
    (s.answers ++ s.calls.filterMap fun call => (call.result? port out).map (call.promise, ·)).map Prod.fst).Perm _
  rw [List.map_append]
  exact (List.perm_append_comm_assoc _ _ _).trans ((hparted.append_left _).trans List.perm_append_comm)

/-- **A port has taken a step**, which did no harm. -/
theorem Sane.receive (h : Sane outputs s) {c c' : Client} {out : List Binding.Output} (hports : s.ports = [c])
    (hopen : c.port.isOpen = true → c'.port.isOpen = true) (hhealthy : c'.Healthy) (hwriter : c'.At w')
    (hmethodical : Methodical c') (hquiet : ∀ output ∈ out, output.troubles = false)
    (hpassed : passed out = [] ∨ s.stream.todo = [] ∧ ∃ data, out = [.data data])
    (hcalls : ∀ call ∈ s.calls, call.promise.write?.isSome →
      call.port = 0 ∧ (w'.method? = some call.method ∨ ∃ result, .returned call.method result ∈ out))
    (hok : ∀ call ∈ s.calls, call.promise.write?.isSome →
      ∀ result, .returned call.method result ∈ out → ∃ event, result = .ok event)
    (hbusy : ∀ method, w'.method? = some method →
      ∃ call ∈ s.calls, call.promise.write?.isSome ∧ call.method = method ∧ ∀ result, .returned method result ∉ out) :
    Continues outputs s (s.receive 0 c' out) := by
  have hset : s.stream.port = some 0 → c'.port.isOpen = true := fun hport => by
    obtain ⟨-, c₁, hports₁, hopen₁⟩ := h.port 0 hport
    rw [hports] at hports₁
    cases hports₁
    exact hopen hopen₁
  obtain ⟨hkept, hundisturbed⟩ := (h.kept.setOpen hset).hear hquiet hpassed
  have hone : (s.receive 0 c' out).ports = [c'] := by
    show s.ports.set 0 c' = [c']
    rw [hports]
    rfl
  have hall {P : Client → Prop} (hc : P c') : ∀ c ∈ (s.receive 0 c' out).ports, P c := by
    rw [hone]
    intro c hmem
    rw [List.mem_singleton.1 hmem]
    exact hc
  refine Unbroken.continues ⟨⟨hkept, ?_, ?_, fun port hport => ?_, fun write hmem => ?_, ?_,
    fun answer hmem hwrite => ?_⟩, hall hhealthy, hall hwriter, hall hmethodical, fun hnil => ?_,
    fun call hmem hwrite => ?_, fun method hmethod => ?_⟩ hundisturbed.port
  · show (out.findSome? threw?).or s.threw = none
    have hnone : out.findSome? threw? = none := by
      rw [List.findSome?_eq_none_iff]
      intro output hmem
      have htroubles := hquiet output hmem
      cases output with
      | threw error => cases htroubles
      | _ => rfl
    rw [hnone, h.threw]
    rfl
  · have hdials : (s.receive 0 c' out).stream.dials ≤ s.stream.dials := hundisturbed.dials
    have hengaged : (s.receive 0 c' out).stream.engaged = s.stream.engaged := hundisturbed.engaged
    have hold := h.dials
    rw [hports] at hold
    rw [hone, hengaged]
    exact (Nat.add_le_add_right hdials _).trans hold
  · obtain ⟨hzero, c₁, hports₁, hopen₁⟩ := h.port port (hundisturbed.port.symm.trans hport)
    rw [hports] at hports₁
    cases hports₁
    exact ⟨hzero, c', hone, hopen hopen₁⟩
  · obtain ⟨hsubmitted, hpromised⟩ := h.submitted write ((receive_writes s 0 c' out).subset hmem)
    obtain ⟨port, hpromise⟩ := SerialPortStream.mem_promised.1 hpromised
    exact ⟨hsubmitted, SerialPortStream.mem_promised.2 ⟨port, hundisturbed.kept _ hpromise⟩⟩
  · exact (receive_writes s 0 c' out).nodup_iff.2 h.distinct
  · rcases List.mem_append.1 hmem with hold | hnew
    · exact h.answers answer hold hwrite
    · obtain ⟨call, hcall, hsome⟩ := List.mem_filterMap.1 hnew
      obtain ⟨result, hresult, rfl⟩ := Option.map_eq_some_iff.1 hsome
      exact hok call hcall hwrite result (Call.result?_eq_some hresult).2
  · rw [hone] at hnil
    cases hnil
  · obtain ⟨hcall, hnone⟩ := List.mem_filter.1 hmem
    obtain ⟨hport, hgoes⟩ := hcalls call hcall hwrite
    refine ⟨hport, hgoes.resolve_right ?_⟩
    rintro ⟨result, hreturned⟩
    exact Call.result?_eq_none (Option.isNone_iff_eq_none.1 hnone) hport result hreturned
  · obtain ⟨call, hcall, hwrite, hsame, hgoes⟩ := hbusy method hmethod
    refine ⟨call, List.mem_filter.2 ⟨hcall, ?_⟩, hwrite, hsame⟩
    cases hresult : call.result? 0 out with
    | none => rfl
    | some result =>
      obtain ⟨-, hreturned⟩ := Call.result?_eq_some hresult
      rw [hsame] at hreturned
      exact absurd hreturned (hgoes result)

/-- **A step of the port**, which calls no method. -/
theorem Unbroken.port_step (h : Unbroken outputs s w) {port : ℕ} {input : Binding.Input} (hfails : input.fails = false)
    (hroom : s.full port input = false) {out : List Stream.Output} (hstep : s.step (.port port input) = some (s', out)) :
    out = [] ∧ Continues outputs s s' := by
  obtain ⟨hturns, hstep⟩ := Option.ite_none_right_eq_some.1 (show (if s.turns input then _ else none) = _ from hstep)
  split at hstep
  · cases hstep
  rename_i c hport
  split at hstep
  · cases hstep
  rename_i c' replies hclient
  obtain ⟨rfl, rfl⟩ := Prod.mk.inj (Option.some.inj hstep)
  obtain ⟨rfl, hports⟩ := h.alone hport
  have hmem : c ∈ s.ports := hports ▸ List.mem_singleton_self c
  have hat := h.writer c hmem
  have hinvoke : ∀ m, input ≠ .invoke m := by
    rintro m rfl
    cases hturns
  have hfull : (c.asks input && 64 ≤ c.port.pending.length) = false := by
    have hfull := hroom
    simp only [Connection.full, hport, Option.any_some] at hfull
    exact hfull
  have heased : c.Eased input := by
    refine ⟨hfails, fun m hi => absurd hi (hinvoke m), fun hasks => ?_⟩
    rw [hasks] at hfull
    simpa using hfull
  obtain ⟨hhealthy, hopen⟩ := (h.healthy c hmem).step hat heased hclient
  obtain ⟨w', hat', hwriter⟩ := Client.step_writer hat hclient
  have hmethodical' := (h.methodical c hmem).step hclient
  refine ⟨rfl, h.toSane.receive hports hopen hhealthy hat' hmethodical' ?_ ?_ ?_ ?_ ?_⟩
  · exact (h.healthy c hmem).quiet hat heased hclient
  · rcases Client.step_listener hclient with hnone | ⟨rfl | rfl, hdata⟩
    · exact .inl hnone
    · exact .inr ⟨of_decide_eq_true (Bool.and_eq_true_iff.1 hturns).2, hdata⟩
    · exact .inr ⟨of_decide_eq_true hturns, hdata⟩
  · intro call hcall hwrite
    obtain ⟨hzero, hmethod⟩ := h.calls call hcall hwrite
    exact ⟨hzero, hwriter.goes_on hmethod⟩
  · intro call hcall hwrite result hreturned
    obtain ⟨-, hmethod⟩ := h.calls call hcall hwrite
    exact (h.healthy c hmem).returned hat (h.methodical c hmem) heased hclient hmethod hreturned
  · intro method hmethod
    rcases hwriter.begun hmethod with hold | ⟨-, m, hi, -⟩
    · obtain ⟨call, hcall, hwrite, hsame⟩ := h.busy method hold
      refine ⟨call, hcall, hwrite, hsame, fun result hreturned => ?_⟩
      have hended := (h.methodical c hmem).ended hclient (List.mem_filterMap.2 ⟨_, hreturned, rfl⟩)
      exact hended (hat'.method_mem hmethod)
    · exact absurd hi (hinvoke m)

/-! ### Steps of the stream -/

theorem spent_parts (s : Connection) (input : Stream.Input) : (s.spent input).ports = s.ports ∧
    (s.spent input).calls = s.calls ∧ (s.spent input).answers.Sublist s.answers ∧
    (s.threw = none → (s.spent input).threw = none) := by
  cases input with
  | throws reason => exact ⟨rfl, rfl, .refl _, fun _ => rfl⟩
  | settle index result =>
    simp only [Connection.spent]
    split
    · exact ⟨rfl, rfl, List.eraseP_sublist, id⟩
    · exact ⟨rfl, rfl, .refl _, id⟩
  | _ => exact ⟨rfl, rfl, .refl _, id⟩

theorem spent_writes (s : Connection) (input : Stream.Input) : (s.spent input).writes.Sublist s.writes := by
  obtain ⟨-, hcalls, hanswers, -⟩ := spent_parts s input
  unfold Connection.writes
  rw [hcalls]
  exact ((hanswers.map _).append_left _).filterMap _

theorem spent_settled {index : ℕ} {result : Result} {promise : Promise} {write : ℕ} (hnodup : s.writes.Nodup)
    (hpromise : s.stream.promises[index]? = some promise) (hsettles : s.settles promise result)
    (hwrite : promise.write? = some write) : write ∉ (s.spent (.settle index result)).writes := by
  obtain ⟨port, rfl⟩ : ∃ port, promise = .writing port write := by
    cases promise with
    | writing port write' =>
      cases hwrite
      exact ⟨port, rfl⟩
    | _ => cases hwrite
  obtain ⟨answer, hmem, hanswer⟩ := List.any_eq_true.1 hsettles
  obtain ⟨answer, before, after, -, hanswer, hsplit, herase⟩ := List.exists_of_eraseP
    (p := fun answer => answer.1 = .writing port write && settlement (.writing port write) answer.2 = result) hmem
    hanswer
  obtain ⟨hsame, -⟩ := Bool.and_eq_true_iff.1 hanswer
  have hspent : (s.spent (.settle index result)).writes =
      (s.calls.map Call.promise ++ (before ++ after).map Prod.fst).filterMap Promise.write? := by
    rw [← herase]
    simp only [Connection.spent, hpromise]
    rfl
  unfold Connection.writes at hnodup
  rw [hsplit] at hnodup
  simp only [List.map_append, List.map_cons, of_decide_eq_true hsame, List.filterMap_append, Promise.write?,
    List.filterMap_cons_some (show (Promise.writing port write).write? = some write from rfl)] at hnodup
  rw [hspent]
  simp only [List.map_append, List.filterMap_append]
  rw [← List.append_assoc, List.nodup_middle] at hnodup
  rw [← List.append_assoc]
  exact (List.nodup_cons.1 hnodup).1

theorem Unbroken.opened (h : Unbroken outputs s w) {cb : Option Stream.Callback} {result : Result}
    (hsettles : s.settles (.opening cb) result) :
    result = .port 0 true ∧ ∃ c, s.ports = [c] ∧ c.port.isOpen = true := by
  cases hports : s.ports with
  | nil => simp [Connection.settles, hports] at hsettles
  | cons c rest =>
    have hfirst : s.ports[0]? = some c := by rw [hports]; rfl
    have hone := (h.alone hfirst).2
    simp only [Connection.settles, hone, List.getLast?_singleton, Option.bind_some, Option.any_some] at hsettles
    rcases (h.healthy c (hone ▸ List.mem_singleton_self c)).opened with hopened | ⟨hopened, hopen⟩
    · rw [hopened] at hsettles
      cases hsettles
    · rw [hopened, hopen] at hsettles
      exact ⟨of_decide_eq_true hsettles, c, hports ▸ hone, hopen⟩

theorem Unbroken.peaceful (h : Unbroken outputs s w) {input : Stream.Input} {argument : Settlement ℕ}
    (hcloses : (Connection.Input.stream input argument).closes = false) (hadmits : s.admits input) :
    s.stream.Peaceful input := by
  cases input with
  | enter entry =>
    cases entry with
    | close | destroy => cases hcloses
    | onClose => cases hadmits
    | _ => trivial
  | returns | proceed | tick => trivial
  | isOpen => cases hadmits
  | throws reason =>
    obtain ⟨-, hadmits⟩ := Bool.and_eq_true_iff.1 hadmits
    split at hadmits
    · exact ⟨_, ‹_›⟩
    · rw [h.threw] at hadmits
      cases hadmits
    · cases hadmits
  | settle index result =>
    intro promise hpromise
    obtain ⟨-, hadmits⟩ := Bool.and_eq_true_iff.1 hadmits
    rw [hpromise] at hadmits
    have hsettles : s.settles promise result := hadmits
    cases promise with
    | opening cb =>
      obtain ⟨rfl, -⟩ := h.opened hsettles
      rfl
    | writing port write =>
      obtain ⟨answer, hmem, hanswer⟩ := List.any_eq_true.1 hsettles
      obtain ⟨hsame, hresult⟩ := Bool.and_eq_true_iff.1 hanswer
      obtain ⟨event, hok⟩ := h.answers answer hmem (by rw [of_decide_eq_true hsame]; rfl)
      obtain rfl : settlement (.writing port write) answer.2 = result := of_decide_eq_true hresult
      rw [hok]
      rfl
    | _ => rfl

/-- **The stream goes on**, before it makes the call of the step. -/
theorem Unbroken.advance (h : Unbroken outputs s w) {input : Stream.Input} {out : List Stream.Output}
    (hadmits : s.admits input) (hpeaceful : s.stream.Peaceful input)
    (hstep : s.stream.step input = some (stream, out)) :
    Unbroken (outputs ++ out) { s.spent input with stream := stream } w ∧ Stays s.stream input out stream := by
  have hgoes := Stream.step_own h.kept.sound (by rintro port value rfl; cases hadmits) hstep
  have hstays := SerialPortStream.step_stays h.kept.attached hpeaceful hstep
  obtain ⟨hports, hcalls, hanswers, hthrew⟩ := spent_parts s input
  have hwrites := spent_writes s input
  have hsettles {index : ℕ} {result : Result} {promise : Promise} (hinput : input = .settle index result)
      (hpromise : s.stream.promises[index]? = some promise) : s.settles promise result := by
    rw [hinput] at hadmits
    obtain ⟨-, hany⟩ := Bool.and_eq_true_iff.1 hadmits
    rw [hpromise] at hany
    exact hany
  refine ⟨⟨⟨⟨hgoes.sound, h.kept.accounted.step hgoes.step, hstays.attached⟩, hthrew h.threw, ?_, fun port hport => ?_,
    fun write hmem => ?_, hwrites.nodup h.distinct, fun answer hmem => h.answers answer (hanswers.subset hmem)⟩,
    hports ▸ h.healthy, hports ▸ h.writer, hports ▸ h.methodical, fun hnil => h.idle (hports ▸ hnil), hcalls ▸ h.calls,
    hcalls ▸ h.busy⟩, hstays⟩
  · have hdials := hstays.dials
    have hold := h.dials
    show stream.dials + (s.spent input).ports.length ≤ if stream.engaged then 1 else 0
    rw [hports]
    omega
  · show port = 0 ∧ ∃ c, (s.spent input).ports = [c] ∧ c.port.isOpen = true
    rw [hports]
    rcases hstays.port with ⟨hsame, -⟩ | ⟨index, new, cb, hinput, hpromise, hnew⟩
    · exact h.port port (hsame.symm.trans hport)
    · obtain ⟨hresult, hone⟩ := h.opened (hsettles hinput hpromise)
      cases hresult
      exact ⟨Option.some.inj (hport.symm.trans hnew), hone⟩
  · obtain ⟨hsubmitted, hpromised⟩ := h.submitted write (hwrites.subset hmem)
    obtain ⟨port, hpromise⟩ := SerialPortStream.mem_promised.1 hpromised
    refine ⟨?_, SerialPortStream.mem_promised.2 ⟨port, ?_⟩⟩
    · rw [Stream.submissions_append, List.map_append]
      exact List.mem_append_left _ hsubmitted
    · rcases hstays.kept _ hpromise with hkept | ⟨index, result, hinput, hsettled⟩
      · exact hkept
      · subst hinput
        exact absurd hmem (spent_settled h.distinct hsettled (hsettles rfl hsettled) rfl)

/-! ### Calls -/

theorem promised_write {output : Stream.Output} {promise : Promise} {write : ℕ}
    (h : promised stream output = some promise) (hwrite : promise.write? = some write) :
    ∃ data, output.submitted? = some (write, data) := by
  unfold promised at h
  split at h
  · cases h
    cases hwrite
  · have hwaits := List.find?_some h
    cases promise with
    | writing port write' =>
      cases hwrite
      cases output with
      | write _ write' data | writev _ write' data =>
        obtain rfl : write = write' := of_decide_eq_true hwaits
        exact ⟨_, rfl⟩
      | _ => cases hwaits
    | _ => cases hwrite

theorem promised_submits {output : Stream.Output} {kind : Stream.Kind} {rest : List Stream.Task} {write : ℕ}
    {data : Buffer} (htodo : stream.todo = .outside kind :: rest) (hkind : kind.cancels = false)
    (hsubmitted : output.submitted? = some (write, data)) (hmem : write ∈ stream.traffic.promised) :
    ∃ promise, promised stream output = some promise ∧ promise.write? = some write := by
  obtain ⟨port, hpromise⟩ := SerialPortStream.mem_promised.1 hmem
  have hwaits : waitsFor output (.writing port write) = true := by
    cases output with
    | write _ write' | writev _ write' =>
      cases hsubmitted
      exact decide_eq_true rfl
    | _ => cases hsubmitted
  have hsome : (stream.promises.reverse.find? (waitsFor output)).isSome = true :=
    List.find?_isSome.2 ⟨_, List.mem_reverse.2 hpromise, hwaits⟩
  obtain ⟨promise, hfind⟩ := Option.isSome_iff_exists.1 hsome
  have hpromised : promised stream output = some promise := by
    unfold promised
    rw [htodo]
    cases kind with
    | canceling => cases hkind
    | _ => exact hfind
  refine ⟨promise, hpromised, ?_⟩
  have hfound := List.find?_some hfind
  cases output with
  | write _ write' | writev _ write' =>
    cases hsubmitted
    cases promise with
    | writing port' other =>
      obtain rfl : other = write := of_decide_eq_true hfound
      rfl
    | _ => cases hfound
  | _ => cases hsubmitted

theorem Sane.unsubmitted (h : Sane outputs s) {output : Stream.Output} {kind : Stream.Kind} {rest : List Stream.Task}
    {write : ℕ} {data : Buffer} (htodo : s.stream.todo = .call output kind :: rest)
    (hsubmitted : output.submitted? = some (write, data)) : s.writes = [] ∧ write ∈ s.stream.traffic.promised := by
  have hmoves : output.moves = true := by
    cases output with
    | write | writev => rfl
    | _ => cases hsubmitted
  have hdue : s.stream.traffic.due = output :: Stream.moving rest := by
    show Stream.moving s.stream.todo = _
    rw [htodo, Stream.moving_call hmoves]
  have haccounted := h.kept.accounted
  have hmem : (write, data) ∈ submissions s.stream.traffic.due := by
    rw [hdue]
    exact List.mem_filterMap.2 ⟨output, List.mem_cons_self, hsubmitted⟩
  have hpromised := haccounted.submitting write (List.mem_map_of_mem hmem)
  refine ⟨?_, hpromised⟩
  rw [List.eq_nil_iff_forall_not_mem]
  intro other hother
  obtain ⟨hold, hother⟩ := h.submitted other hother
  have hheld {write : ℕ} (hpromised : write ∈ s.stream.traffic.promised) : write ∈ s.stream.traffic.held :=
    List.mem_append_left _ (List.mem_append_right _ hpromised)
  have hsame : other ∈ [write] := (haccounted.held_singleton (hheld hpromised)).2 ▸ hheld hother
  obtain rfl := List.mem_singleton.1 hsame
  -- no write is submitted twice
  have hnodup : ((submissions outputs ++ s.stream.traffic.requests).map Prod.fst).Nodup := by
    refine (haccounted.requested.map _).nodup ?_
    rw [haccounted.numbered]
    exact List.nodup_range
  rw [List.map_append] at hnodup
  exact List.disjoint_of_nodup_append hnodup hold (List.mem_map_of_mem (List.mem_append_left _ hmem))

theorem controlMethod_serves {argument : Settlement ℕ} {operation : Binding.ControlOperation} {m : Method}
    (h : controlMethod argument operation = .ok m) : m.serves = true ∧ m.writes = false := by
  cases operation with
  | update | set =>
    cases argument with
    | ok value =>
      cases h
      exact ⟨rfl, rfl⟩
    | error error => cases h
  | _ =>
    cases h
    exact ⟨rfl, rfl⟩

theorem target_refused {argument : Settlement ℕ} {output : Stream.Output} {port : ℕ} {error : SerialError}
    (h : s.target argument output = some (port, .error error)) : output.submitted? = none := by
  cases output with
  | operation => rfl
  | _ => cases h

theorem target_serves {argument : Settlement ℕ} {output : Stream.Output} {port : ℕ} {m : Method}
    (hdisconnects : output.disconnects = false) (hreads : output.reads = false)
    (h : s.target argument output = some (port, .ok m)) :
    output.port? = some port ∧ m.serves = true ∧ (m.writes = true ↔ ∃ request, output.submitted? = some request) := by
  cases output with
  | write | writev =>
    cases h
    exact ⟨rfl, rfl, fun _ => ⟨_, rfl⟩, fun _ => rfl⟩
  | startReading =>
    cases h
    exact ⟨rfl, rfl, nofun, nofun⟩
  | operation port' operation baudRate =>
    obtain ⟨rfl, hmethod⟩ := Prod.mk.inj (Option.some.inj h)
    obtain ⟨hserves, hwrites⟩ := controlMethod_serves hmethod
    refine ⟨rfl, hserves, fun hyes => ?_, nofun⟩
    rw [hwrites] at hyes
    cases hyes
  | bindingCancel | close => cases hdisconnects
  | readChunk => cases hreads
  | _ => cases h

theorem Unbroken.dial (h : Unbroken outputs s w)
    (hdials : s.stream.dials + 1 + s.ports.length ≤ if s.stream.engaged then 1 else 0) :
    Unbroken outputs { s with ports := s.ports ++ [Client.new s.path 1] } w := by
  have hnone : s.ports = [] := by
    rw [← List.length_eq_zero_iff]
    split at hdials <;> omega
  have hidle := h.idle hnone
  have hall {P : Client → Prop} (hc : P (Client.new s.path 1)) : ∀ c ∈ s.ports ++ [Client.new s.path 1], P c := by
    rw [hnone]
    intro c hmem
    rw [List.mem_singleton.1 hmem]
    exact hc
  refine ⟨⟨h.kept, h.threw, ?_, fun port hport => ?_, h.submitted, h.distinct, h.answers⟩, hall (.start _ _), hall ?_,
    hall (.start _ _), fun hnil => ?_, h.calls, h.busy⟩
  · show s.stream.dials + (s.ports ++ [Client.new s.path 1]).length ≤ _
    rw [hnone] at hdials ⊢
    exact hdials
  · obtain ⟨-, c, hports, -⟩ := h.port port hport
    rw [hnone] at hports
    cases hports
  · rw [hidle]
    exact .start _ _
  · exact absurd hnil (by simp)

theorem promised_fresh {output : Stream.Output} {write : ℕ}
    (h : write ∈ (promised stream output).toList.filterMap Promise.write?) :
    ∃ data, output.submitted? = some (write, data) := by
  obtain ⟨promise, hmem, hwrite⟩ := List.mem_filterMap.1 h
  exact promised_write (Option.mem_toList.1 hmem) hwrite

theorem Unbroken.refused (h : Unbroken outputs s w) {output : Stream.Output} (houtput : output.submitted? = none)
    (error : SerialError) :
    Unbroken outputs { s with answers := s.answers ++ (promised s.stream output).toList.map (·, .error error) } w := by
  have hnone : (promised s.stream output).toList.filterMap Promise.write? = [] := by
    rw [List.eq_nil_iff_forall_not_mem]
    intro write hmem
    obtain ⟨data, hsubmitted⟩ := promised_fresh hmem
    rw [houtput] at hsubmitted
    cases hsubmitted
  have hwrites : ({ s with answers := s.answers ++ (promised s.stream output).toList.map (·, .error error) } :
      Connection).writes = s.writes := by
    simp only [Connection.writes, List.map_append, List.map_map, List.filterMap_append]
    have hfst : (Prod.fst ∘ fun promise : Promise => (promise, (.error error : Settlement (Option NativeEvent)))) = id :=
      rfl
    rw [hfst, List.map_id, hnone, List.append_nil]
  refine ⟨⟨h.kept, h.threw, h.dials, h.port, hwrites ▸ h.submitted, hwrites ▸ h.distinct, fun answer hmem hwrite => ?_⟩,
    h.healthy, h.writer, h.methodical, h.idle, h.calls, h.busy⟩
  rcases List.mem_append.1 hmem with hold | hnew
  · exact h.answers answer hold hwrite
  · obtain ⟨promise, hpromise, rfl⟩ := List.mem_map.1 hnew
    obtain ⟨write, hsome⟩ := Option.isSome_iff_exists.1 hwrite
    have hin : write ∈ (promised s.stream output).toList.filterMap Promise.write? :=
      List.mem_filterMap.2 ⟨promise, hpromise, hsome⟩
    rw [hnone] at hin
    cases hin

theorem Sane.link (h : Sane outputs s) {output : Stream.Output}
    (hsubmits : ∀ write data, output.submitted? = some (write, data) →
      s.writes = [] ∧ write ∈ (submissions outputs).map Prod.fst ∧ write ∈ s.stream.traffic.promised)
    (port method : ℕ) : Sane outputs (s.link output port method) := by
  have hwrites : (s.link output port method).writes.Perm
      (s.writes ++ (promised s.stream output).toList.filterMap Promise.write?) := by
    unfold Connection.writes
    rw [← List.filterMap_append]
    refine List.Perm.filterMap _ ?_
    show ((s.calls ++ (promised s.stream output).toList.map fun promise => (⟨promise, port, method⟩ : Call)).map
      Call.promise ++ _).Perm _
    have hpromise : (Call.promise ∘ fun promise => (⟨promise, port, method⟩ : Call)) = id := rfl
    rw [List.map_append, List.map_map, hpromise, List.map_id, List.append_assoc, List.append_assoc]
    exact List.perm_append_comm.append_left _
  refine ⟨h.kept, h.threw, h.dials, h.port, fun write hmem => ?_, hwrites.nodup_iff.2 ?_, h.answers⟩
  · rcases List.mem_append.1 (hwrites.subset hmem) with hold | hnew
    · exact h.submitted write hold
    · obtain ⟨data, hsubmitted⟩ := promised_fresh hnew
      exact (hsubmits write data hsubmitted).2
  · refine List.nodup_append.2 ⟨h.distinct, ?_, fun old hold new hnew => ?_⟩
    · cases promised s.stream output with
      | none => exact List.nodup_nil
      | some promise =>
        rw [Option.toList_some, List.filterMap_cons]
        split
        · exact List.nodup_nil
        · exact List.nodup_singleton _
    · obtain ⟨data, hsubmitted⟩ := promised_fresh hnew
      rw [(hsubmits new data hsubmitted).1] at hold
      cases hold

/-- **A method of the open port is called.** -/
theorem Unbroken.invoke (h : Unbroken outputs s w) {c c' : Client} {replies : List Binding.Output}
    {output : Stream.Output} {kind : Stream.Kind} {rest : List Stream.Task} {m : Method} (hports : s.ports = [c])
    (hopen : c.port.isOpen = true) (hserves : m.serves = true)
    (hwrites : m.writes = true ↔ ∃ request, output.submitted? = some request)
    (hroom : c.asks (.invoke m) = true → c.port.pending.length < 64)
    (hsubmits : ∀ write data, output.submitted? = some (write, data) →
      s.writes = [] ∧ write ∈ (submissions outputs).map Prod.fst ∧ write ∈ s.stream.traffic.promised)
    (htodo : s.stream.todo = .outside kind :: rest) (hkind : kind.cancels = false)
    (hclient : c.step (.invoke m) = some (c', replies)) :
    Continues outputs s ((s.link output 0 c.promises).receive 0 c' replies) := by
  have hmem : c ∈ s.ports := hports ▸ List.mem_singleton_self c
  have hat := h.writer c hmem
  have hhealthy := h.healthy c hmem
  have hmethodical := h.methodical c hmem
  have hstep : Binding.client.step c (.invoke m) = some (c', replies) := hclient
  -- no write is in progress when one is submitted
  have hidle (hm : m.writes = true) : w.method? = none := by
    obtain ⟨⟨write, data⟩, hsubmitted⟩ := hwrites.1 hm
    rw [Option.eq_none_iff_forall_ne_some]
    intro method hmethod
    obtain ⟨call, hcall, hwrite, -⟩ := h.busy method hmethod
    obtain ⟨other, hother⟩ := Option.isSome_iff_exists.1 hwrite
    have hin : other ∈ s.writes :=
      List.mem_filterMap.2 ⟨call.promise, List.mem_append_left _ (List.mem_map_of_mem hcall), hother⟩
    rw [(hsubmits write data hsubmitted).1] at hin
    cases hin
  have hwriting (hm : m.writes = true) : c.port.writing = false := by
    rw [hat.busy, Writer.busy_eq, hidle hm]
    rfl
  have heased : c.Eased (.invoke m) := by
    refine ⟨rfl, fun m' hi => ?_, hroom⟩
    cases hi
    exact ⟨hserves, hopen, hwriting⟩
  obtain ⟨hhealthy', hopen'⟩ := hhealthy.step hat heased hclient
  obtain ⟨w', hat', hwriter⟩ := Client.step_writer hat hclient
  have hreturned (hm : m.writes = true) (result : Settlement (Option NativeEvent)) :
      .returned c.promises result ∉ replies := by
    intro hin
    cases Client.step_runs hclient with
    | invoke =>
      rcases List.mem_cons.1 hin with heq | hin
      · cases heq
      · exact Client.invoke_not_returned (hhealthy.admits hopen) hm (hwriting hm) hroom hin
  -- the new call is that of the write, if it is one
  have hnew {call : Call} (hcall : call ∈ (promised s.stream output).toList.map (⟨·, 0, c.promises⟩ : Promise → Call))
      (hwrite : call.promise.write?.isSome) : call.port = 0 ∧ call.method = c.promises ∧ m.writes = true := by
    obtain ⟨promise, hpromise, rfl⟩ := List.mem_map.1 hcall
    obtain ⟨write, hsome⟩ := Option.isSome_iff_exists.1 hwrite
    obtain ⟨data, hsubmitted⟩ := promised_write (Option.mem_toList.1 hpromise) hsome
    exact ⟨rfl, rfl, hwrites.2 ⟨_, hsubmitted⟩⟩
  let s₁ := s.link output 0 c.promises
  suffices hcontinues : Continues outputs s₁ (s₁.receive 0 c' replies) from ⟨hcontinues.unbroken, hcontinues.port⟩
  refine (h.toSane.link hsubmits 0 c.promises).receive hports (fun _ => hopen' hopen) hhealthy' hat'
    (hmethodical.step hstep) ?_ ?_ ?_ ?_ ?_
  · exact hhealthy.quiet hat heased hclient
  · rcases Client.step_listener hstep with hnone | ⟨hinput | hinput, -⟩
    · exact .inl hnone
    · cases hinput
    · cases hinput
  · intro call hcall hwrite
    rcases List.mem_append.1 hcall with hold | hcall
    · obtain ⟨hzero, hmethod⟩ := h.calls call hold hwrite
      exact ⟨hzero, hwriter.goes_on hmethod⟩
    · obtain ⟨hzero, hmethod, hm⟩ := hnew hcall hwrite
      rw [hmethod]
      exact ⟨hzero, .inl (hwriter.invoked rfl hm (hreturned hm))⟩
  · intro call hcall hwrite result hin
    rcases List.mem_append.1 hcall with hold | hcall
    · exact hhealthy.returned hat hmethodical heased hclient (h.calls call hold hwrite).2 hin
    · obtain ⟨-, hmethod, hm⟩ := hnew hcall hwrite
      exact absurd (hmethod ▸ hin) (hreturned hm result)
  · intro method hmethod
    rcases hwriter.begun hmethod with hold | ⟨rfl, m', hi, hm⟩
    · obtain ⟨call, hcall, hwrite, hsame⟩ := h.busy method hold
      refine ⟨call, List.mem_append_left _ hcall, hwrite, hsame, fun result hin => ?_⟩
      exact hmethodical.ended hstep (List.mem_filterMap.2 ⟨_, hin, rfl⟩) (hat'.method_mem hmethod)
    · cases hi
      obtain ⟨⟨write, data⟩, hsubmitted⟩ := hwrites.1 hm
      obtain ⟨promise, hpromised, hwrite⟩ := promised_submits htodo hkind hsubmitted (hsubmits write data hsubmitted).2.2
      refine ⟨⟨promise, 0, c.promises⟩, List.mem_append_right _ ?_, by rw [hwrite]; rfl, rfl, hreturned hm⟩
      exact List.mem_map.2 ⟨promise, Option.mem_toList.2 hpromised, rfl⟩

/-- **The stream makes its call.** -/
theorem Unbroken.call (h : Unbroken outputs s w) {argument : Settlement ℕ} {output : Stream.Output} {kind : Stream.Kind}
    {rest : List Stream.Task} (hdisconnects : output.disconnects = false) (hreads : output.reads = false)
    (hport : ∀ port, output.port? = some port → s.stream.port = some port)
    (hdials : output.dials = true → s.stream.dials + 1 + s.ports.length ≤ if s.stream.engaged then 1 else 0)
    (hsubmits : ∀ write data, output.submitted? = some (write, data) →
      s.writes = [] ∧ write ∈ (submissions outputs).map Prod.fst ∧ write ∈ s.stream.traffic.promised)
    (hroom : ∀ port m, s.target argument output = some (port, .ok m) → s.full port (.invoke m) = false)
    (htodo : s.stream.todo = .outside kind :: rest) (hkind : kind.cancels = false)
    (hcall : s.call argument output = some s') : Continues outputs s s' := by
  unfold Connection.call at hcall
  split at hcall
  · cases hcall
    exact (h.dial (hdials rfl)).continues rfl
  split at hcall
  · cases hcall
    exact h.continues rfl
  · rename_i htarget
    cases hcall
    exact (h.refused (target_refused htarget) _).continues rfl
  rename_i port m htarget
  split at hcall
  · cases hcall
  rename_i c hfound
  split at hcall
  · cases hcall
  rename_i c' replies hclient
  obtain ⟨haddress, hserves, hwrites⟩ := target_serves hdisconnects hreads htarget
  obtain ⟨rfl, hports⟩ := h.alone hfound
  obtain ⟨-, c₁, hports₁, hopen⟩ := h.port 0 (hport 0 haddress)
  obtain rfl : c = c₁ := List.singleton_inj.1 (hports.symm.trans hports₁)
  have hfull := hroom 0 m htarget
  simp only [Connection.full, hfound, Option.any_some] at hfull
  have hroom (hasks : c.asks (.invoke m) = true) : c.port.pending.length < 64 := by
    rw [hasks] at hfull
    simpa using hfull
  cases hcall
  exact h.invoke hports hopen hserves hwrites hroom hsubmits htodo hkind hclient

/-! ### Steps and runs -/

theorem foldlM_noted {out : List Stream.Output} (h : ∀ output ∈ out, output.noted) (s : Connection)
    (argument : Settlement ℕ) : out.foldlM (Connection.call · argument) s = some s := by
  induction out generalizing s with
  | nil => rfl
  | cons output out ih =>
    have hone : s.call argument output = some s := by
      have hnoted := h output List.mem_cons_self
      cases output with
      | handed | torn => rfl
      | _ => cases hnoted
    rw [List.foldlM_cons, hone]
    exact ih (fun output hmem => h output (List.mem_cons_of_mem _ hmem)) s

/-- **A step of the stream**, with the call it makes. -/
theorem Unbroken.stream_step (h : Unbroken outputs s w) {input : Stream.Input} {argument : Settlement ℕ}
    (hcloses : (Connection.Input.stream input argument).closes = false)
    (hroom : s.crowded (.stream input argument) = false) {out : List Stream.Output}
    (hstep : s.step (.stream input argument) = some (s', out)) :
    Continues (outputs ++ out) s s' ∧ ∀ output ∈ out, output.disconnects = false := by
  obtain ⟨hadmits, hstep⟩ := Option.ite_none_right_eq_some.1 (show (if s.admits input then _ else none) = _ from hstep)
  split at hstep
  · cases hstep
  rename_i stream out' hstream
  obtain ⟨s₁, hcalls, heq⟩ := Option.map_eq_some_iff.1 hstep
  obtain ⟨rfl, rfl⟩ := Prod.mk.inj heq
  obtain ⟨hmid, hstays⟩ := h.advance hadmits (h.peaceful hcloses hadmits) hstream
  have hport (port : ℕ) (hold : s.stream.port = some port) : stream.port = some port := by
    rcases hstays.port with ⟨hsame, -⟩ | ⟨index, new, cb, -, -, hnew⟩
    · exact hsame.trans hold
    · obtain ⟨rfl, -⟩ := hmid.port new hnew
      obtain ⟨rfl, -⟩ := h.port port hold
      exact hnew
  refine ⟨?_, fun output hmem => (hstays.quiet output hmem).1⟩
  rcases SerialPortStream.step_calls hstream with hnoted | ⟨output, kind, rest, rfl, htodo, rfl, htodo', hpromises⟩
  · rw [foldlM_noted hnoted] at hcalls
    cases hcalls
    exact ⟨⟨w, hmid⟩, hport⟩
  · simp only [List.foldlM_cons, List.foldlM_nil, bind_pure] at hcalls
    obtain ⟨hdisconnects, hreads, haddress⟩ := hstays.quiet output (List.mem_singleton_self _)
    have hkind : kind.cancels = false := by
      have hsafe := (h.kept.attached.todo _ (htodo ▸ List.mem_cons_self)).disconnects
      simp only [Stream.Task.disconnects, Bool.or_eq_false_iff] at hsafe
      exact hsafe.2
    suffices hcontinues : Continues (outputs ++ [output]) { s with stream := stream } s₁ from
      ⟨hcontinues.unbroken, fun port hold => hcontinues.port port (hport port hold)⟩
    refine hmid.call hdisconnects hreads (fun port hcalled => hport port (haddress port hcalled)) (fun houtput => ?_)
      (fun write data hsubmitted => ?_) (fun port m htarget => ?_) htodo' hkind hcalls
    · have hdials := hstays.dials
      have hold := h.dials
      rw [List.countP_singleton, if_pos houtput] at hdials
      show stream.dials + 1 + s.ports.length ≤ if stream.engaged then 1 else 0
      omega
    · obtain ⟨hnone, hpromised⟩ := h.unsubmitted htodo hsubmitted
      refine ⟨hnone, ?_, ?_⟩
      · rw [Stream.submissions_append, List.map_append]
        refine List.mem_append_right _ (List.mem_map.2 ⟨(write, data), ?_, rfl⟩)
        exact List.mem_filterMap.2 ⟨output, List.mem_singleton_self _, hsubmitted⟩
      · show write ∈ stream.promises.filterMap Promise.write?
        rw [hpromises]
        exact hpromised
    · have hinvokes : s.invokes argument = some (port, m) := by
        have hsame : s.target argument output = some (port, .ok m) := htarget
        unfold Connection.invokes
        rw [htodo]
        dsimp only
        rw [hsame]
      rw [Connection.crowded, hinvokes] at hroom
      exact hroom

/-- **Every step keeps the connection unbroken.** -/
theorem step_unbroken (h : Unbroken outputs s w) {input : Connection.Input} (hfails : input.fails = false)
    (hcloses : input.closes = false) (hroom : s.crowded input = false) {out : List Stream.Output}
    (hstep : s.step input = some (s', out)) :
    Continues (outputs ++ out) s s' ∧ ∀ output ∈ out, output.disconnects = false := by
  cases input with
  | stream input argument => exact h.stream_step hcloses hroom hstep
  | port port input =>
    obtain ⟨rfl, hcontinues⟩ := h.port_step hfails hroom hstep
    rw [List.append_nil]
    exact ⟨hcontinues, by simp⟩

theorem new_unbroken (path : String) (endOnClose : Bool) (highWaterMark : ℕ) (baudRate : Option ℕ) :
    Unbroken [] (.new path endOnClose highWaterMark baudRate) .idle := by
  refine ⟨⟨⟨Stream.new_sound _ _ _ _ _, Stream.new_accounted _ _ _ _, SerialPortStream.new_attached (fun _ => rfl) _ _ _⟩,
    rfl, Nat.zero_le _, nofun, (fun _ h => nomatch h), List.nodup_nil, fun _ h => nomatch h⟩, (fun _ h => nomatch h),
    (fun _ h => nomatch h), (fun _ h => nomatch h), fun _ => rfl, (fun _ h => nomatch h), nofun⟩

/-- **Runs keep the connection unbroken.** -/
theorem run_unbroken (h : Unbroken outputs s w) {inputs : List Connection.Input} {out : List Stream.Output}
    (hsafe : ∀ input ∈ inputs, input.fails = false ∧ input.closes = false)
    (hroom : connection.Along (fun _ _ s input => s.crowded input = false) s inputs)
    (hrun : connection.run s inputs = some (s', out)) :
    Continues (outputs ++ out) s s' ∧ ∀ output ∈ out, output.disconnects = false := by
  induction inputs generalizing outputs s w out with
  | nil =>
    cases hrun
    rw [List.append_nil]
    exact ⟨⟨⟨w, h⟩, fun _ => id⟩, by simp⟩
  | cons input inputs ih =>
    obtain ⟨s₁, first, rest, hstep, hrest, rfl⟩ := Machine.run_cons_inv hrun
    obtain ⟨hfails, hcloses⟩ := hsafe input List.mem_cons_self
    have hnow := hroom [] input inputs rfl s [] rfl
    obtain ⟨⟨⟨w₁, h₁⟩, hport⟩, hfirst⟩ := step_unbroken h hfails hcloses hnow hstep
    have hlater : connection.Along (fun _ _ s input => s.crowded input = false) s₁ inputs := by
      rintro pre i post rfl s₂ out₂ hpre
      exact hroom (input :: pre) i post rfl s₂ _ (Machine.run_cons hstep hpre)
    obtain ⟨⟨hunbroken, hport'⟩, houtputs⟩ :=
      ih h₁ (fun i hmem => hsafe i (List.mem_cons_of_mem _ hmem)) hlater hrest
    rw [List.append_assoc] at hunbroken
    refine ⟨⟨hunbroken, fun port hold => hport' port (hport port hold)⟩, fun output hmem => ?_⟩
    exact (List.mem_append.1 hmem).elim (hfirst output) (houtputs output)

/-- **Load alone breaks no connection where every part of a write finds room.**  However many control calls and writes
are outstanding, and however many control calls are refused: in every run in which the native layer reports no failure and
nobody closes the stream, and in which fewer than 64 operations are pending whenever a part of a write is submitted, the
stream closes no port and tells of no close, and once it is open it stays open, with the same port. -/
theorem load_keeps_open (path : String) (endOnClose : Bool) (highWaterMark : ℕ) (baudRate : Option ℕ)
    {inputs : List Connection.Input} {s : Connection} {outputs : List Stream.Output}
    (hsafe : ∀ input ∈ inputs, input.fails = false ∧ input.closes = false)
    (hroom : connection.Along (fun _ _ s input => s.crowded input = false)
      (.new path endOnClose highWaterMark baudRate) inputs)
    (hrun : connection.run (.new path endOnClose highWaterMark baudRate) inputs = some (s, outputs)) :
    (∀ output ∈ outputs, output.disconnects = false) ∧ s.stream.closing = false ∧
      (∀ port, s.stream.port = some port → ∃ c, s.ports[port]? = some c ∧ c.port.isOpen = true ∧ c.port.closing = false) ∧
      ∀ pre post s₁ out, inputs = pre ++ post →
        connection.run (.new path endOnClose highWaterMark baudRate) pre = some (s₁, out) → s₁.stream.isOpen = true →
        s.stream.isOpen = true ∧ s.stream.port = s₁.stream.port := by
  have hnew := new_unbroken path endOnClose highWaterMark baudRate
  obtain ⟨⟨⟨w, h⟩, -⟩, houtputs⟩ := run_unbroken hnew hsafe hroom hrun
  refine ⟨houtputs, h.kept.attached.closing, fun port hport => ?_, ?_⟩
  · obtain ⟨rfl, c, hports, hopen⟩ := h.port port hport
    refine ⟨c, by rw [hports]; rfl, hopen, (h.healthy c ?_).closing⟩
    rw [hports]
    exact List.mem_singleton_self c
  · rintro pre post s₁ out rfl hpre hopen
    obtain ⟨⟨⟨w₁, h₁⟩, -⟩, -⟩ :=
      run_unbroken hnew (fun i hmem => hsafe i (List.mem_append_left _ hmem)) hroom.of_append hpre
    have hpost : connection.Along (fun _ _ s input => s.crowded input = false) s₁ post := by
      rintro p i q rfl s₂ out₂ hrun₂
      exact hroom (pre ++ p) i q (by simp) s₂ _ (Machine.run_append hpre hrun₂)
    obtain ⟨s₂, out₁, rest, hpre', hrest, -⟩ := Machine.run_append_inv hrun
    obtain ⟨rfl, -⟩ := Prod.mk.inj (Option.some.inj (hpre.symm.trans hpre'))
    obtain ⟨⟨-, hport⟩, -⟩ := run_unbroken h₁ (fun i hmem => hsafe i (List.mem_append_right _ hmem)) hpost hrest
    obtain ⟨port, hold⟩ := Option.isSome_iff_exists.1 (h₁.kept.attached.isOpen_iff.1 hopen)
    have hnow := hport port hold
    exact ⟨h.kept.attached.open_of_port hnow, hnow.trans hold.symm⟩

/-! ### A full port -/

theorem along_roomy {inputs : List Connection.Input} {out : List Stream.Output}
    (hrun : connection.run s inputs = some (s', out))
    (h : connection.collect (fun s input => if s.crowded input then [input] else []) s inputs = []) :
    connection.Along (fun _ _ s input => s.crowded input = false) s inputs := by
  intro pre i post heq s₁ out₁ hpre
  have hnil : (if s₁.crowded i then [i] else []) = [] := (Machine.collect_eq_nil hrun).1 h pre i post heq s₁ out₁ hpre
  cases hcrowded : s₁.crowded i with
  | false => rfl
  | true =>
    rw [hcrowded] at hnil
    cases hnil

def onStream (input : Stream.Input) : Connection.Input := .stream input (.ok 0)

/-- The stream opens its port; then 64 control calls are queued, and none of them ends. -/
def backlog : List Connection.Input :=
  [onStream (.enter (.open none)), onStream .proceed, onStream .returns,
    .port 0 (.callback (.event { kind := .opened, id := 0 })), onStream (.settle 0 (.port 0 true)), onStream .proceed,
    onStream .returns, onStream .proceed, onStream .proceed] ++
  (List.replicate 64 [onStream (.enter (.operation .get none none)), onStream .proceed, .port 0 (.answer .queued),
    onStream .returns]).flatten

def tooMany : Stream.Result := .rejected (.error { message := "Too many pending serial operations" })

/-- One more control call is refused. -/
def oneCall : List Connection.Input :=
  [onStream (.enter (.operation .get none none)), onStream .proceed, onStream .returns, .port 0 (.resume 64),
    onStream (.settle 64 tooMany), onStream .proceed, onStream .returns]

/-- A write is refused. -/
def oneWrite : List Connection.Input :=
  [onStream (.enter (._write [1])), onStream .proceed, onStream .returns, onStream (.settle 64 tooMany),
    onStream .proceed]

def attach : Connection := .new "/dev/ttyS0" false 65536 none

/-- A control call that is refused is reported, and that is all. -/
theorem load_keeps_open_refused : ∃ s outputs, connection.run attach (backlog ++ oneCall) = some (s, outputs) ∧
    .emitError { message := "Too many pending serial operations" } ∈ outputs ∧
    (∀ output ∈ outputs, output.disconnects = false) ∧ s.stream.closing = false ∧
      (∀ port, s.stream.port = some port → ∃ c, s.ports[port]? = some c ∧ c.port.isOpen = true ∧ c.port.closing = false) ∧
      ∀ pre post s₁ out, backlog ++ oneCall = pre ++ post → connection.run attach pre = some (s₁, out) →
        s₁.stream.isOpen = true → s.stream.isOpen = true ∧ s.stream.port = s₁.stream.port := by
  have heval : (connection.run attach (backlog ++ oneCall)).any
      (fun r => .emitError { message := "Too many pending serial operations" } ∈ r.2) = true := by
    decide +kernel
  obtain ⟨⟨s, outputs⟩, hrun, herror⟩ := (Option.any_eq_true _ _).1 heval
  have hroom := along_roomy hrun (by decide +kernel)
  exact ⟨s, outputs, hrun, of_decide_eq_true herror,
    load_keeps_open "/dev/ttyS0" false 65536 none (by decide +kernel) hroom hrun⟩

/-- **A write that is refused closes the port**: 64 control calls are pending, nothing has failed and nobody closed the
stream, and the write of one byte closes it. -/
theorem overload_closes : ∃ s outputs s', connection.run attach backlog = some (s, outputs) ∧ s.stream.isOpen = true ∧
    (∀ input ∈ backlog ++ oneWrite, input.fails = false ∧ input.closes = false) ∧
    connection.run s oneWrite = some (s', [.handed 0 [1], .write 0 0 [1], .close 0]) ∧ s'.stream.isOpen = false := by
  have heval : (connection.run attach backlog).any (fun r => r.1.stream.isOpen &&
      (connection.run r.1 oneWrite).any fun r' =>
        r'.2 = [.handed 0 [1], .write 0 0 [1], .close 0] && !r'.1.stream.isOpen) = true := by
    decide +kernel
  obtain ⟨⟨s, outputs⟩, hrun, heval⟩ := (Option.any_eq_true _ _).1 heval
  obtain ⟨hopen, heval⟩ := Bool.and_eq_true_iff.1 heval
  obtain ⟨⟨s', replies⟩, hwrite, heval⟩ := (Option.any_eq_true _ _).1 heval
  obtain ⟨hreplies, hclosed⟩ := Bool.and_eq_true_iff.1 heval
  obtain rfl := of_decide_eq_true hreplies
  exact ⟨s, outputs, s', hrun, hopen, by decide +kernel, hwrite, by simpa using hclosed⟩

end NodeSerialport.Composition
