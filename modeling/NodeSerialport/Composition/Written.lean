import NodeSerialport.Composition.Layers
import NodeSerialport.Composition.Sequence
import NodeSerialport.Stream.Reported
/-!
# What the application wrote

The bytes the application hands to the stream, and what the devices of its ports did.

* `submissionsTo` — the writes the stream submitted to a port;
* `tied` — each of them with the method of the port that runs for it;
* `Tied` — the invariant: a write is reported done only where that method resolved;
* `output_conveyed` — over every run of the stack.
-/

namespace NodeSerialport.Composition

open Lib (Machine)
open Parsers (Buffer)
open Binding (Client Method Settlement NativeEvent)
open Native (NativePort log)
open NodeSerialport.Stream (SerialPortStream Accounted handings submissions)

/-! ### Writes and ports -/

/-- A write that is submitted, with its port. -/
def addressed? : Stream.Output → Option (ℕ × ℕ × Buffer)
  | .write port write data => some (port, write, data)
  | .writev port write chunks => some (port, write, chunks.flatten)
  | _ => none

/-- The writes the stream submitted, with their ports. -/
def addressed (outputs : List Stream.Output) : List (ℕ × ℕ × Buffer) := outputs.filterMap addressed?

/-- The writes the stream submitted to a port. -/
def submissionsTo (p : ℕ) (outputs : List Stream.Output) : List (ℕ × Buffer) :=
  ((addressed outputs).filter (·.1 = p)).map Prod.snd

theorem addressed_append (a b : List Stream.Output) : addressed (a ++ b) = addressed a ++ addressed b := List.filterMap_append

theorem submissionsTo_append (p : ℕ) (a b : List Stream.Output) :
    submissionsTo p (a ++ b) = submissionsTo p a ++ submissionsTo p b := by
  unfold submissionsTo
  rw [addressed_append, List.filter_append, List.map_append]

theorem addressed_submitted (output : Stream.Output) : (addressed? output).map Prod.snd = output.submitted? := by
  cases output <;> rfl

theorem addressed_submissions (outputs : List Stream.Output) : (addressed outputs).map Prod.snd = submissions outputs := by
  unfold addressed submissions
  rw [List.map_filterMap]
  exact List.filterMap_congr fun output _ => addressed_submitted output

theorem mem_submissionsTo {p : ℕ} {write : ℕ × Buffer} {outputs : List Stream.Output} :
    write ∈ submissionsTo p outputs ↔ (p, write) ∈ addressed outputs := by
  unfold submissionsTo
  constructor
  · intro hmem
    obtain ⟨⟨q, write'⟩, hfilter, rfl⟩ := List.mem_map.1 hmem
    obtain ⟨hin, hport⟩ := List.mem_filter.1 hfilter
    rw [← show q = p from of_decide_eq_true hport]
    exact hin
  · exact fun hmem => List.mem_map.2 ⟨_, List.mem_filter.2 ⟨hmem, decide_eq_true rfl⟩, rfl⟩

theorem submissionsTo_sublist (p : ℕ) (outputs : List Stream.Output) :
    (submissionsTo p outputs).Sublist (submissions outputs) := by
  rw [← addressed_submissions]
  exact List.filter_sublist.map _

theorem submissionsTo_nil {out : List Stream.Output} (h : ∀ output ∈ out, output.submitted? = none) (p : ℕ) :
    submissionsTo p out = [] := by
  have hnil : addressed out = [] := by
    rw [addressed, List.filterMap_eq_nil_iff]
    intro output hmem
    exact Option.map_eq_none_iff.1 ((addressed_submitted output).trans (h output hmem))
  unfold submissionsTo
  rw [hnil]
  rfl

theorem submissions_nodup {outputs : List Stream.Output} {t : Stream.Traffic} (h : Accounted outputs t) :
    ((submissions outputs).map Prod.fst).Nodup := by
  have hnodup : ((handings outputs).map Prod.fst).Nodup := h.numbered ▸ List.nodup_range
  exact hnodup.sublist (((List.sublist_append_left _ _).trans h.requested).map _)

theorem submitted_once {outputs : List Stream.Output} {t : Stream.Traffic} (h : Accounted outputs t) {p q : ℕ}
    {write : ℕ} {data data' : Buffer} (hp : (write, data) ∈ submissionsTo p outputs)
    (hq : (write, data') ∈ submissionsTo q outputs) : p = q ∧ data = data' := by
  have hnodup : ((addressed outputs).map fun a => a.2.1).Nodup := by
    have hfst := submissions_nodup h
    rwa [← addressed_submissions, List.map_map] at hfst
  have hsame := List.inj_on_of_nodup_map hnodup (mem_submissionsTo.1 hp) (mem_submissionsTo.1 hq) rfl
  cases hsame
  exact ⟨rfl, rfl⟩

/-- The writes the port ran, in a run over these inputs. -/
def ran (path : String) (inputs : List Input) : List (ℕ × Method) := system.collect System.begun (System.new path 1) inputs

/-- **The writes the stream submitted to a port**, each with the method that ran for it. -/
def tied (path : String) (inputs : ℕ → List Input) (outputs : List Stack.Output) (p : ℕ) :
    List ((ℕ × Method) × ℕ × Buffer) :=
  (ran path (inputs p)).zip (submissionsTo p (streamOutputs outputs))

/-- A write, and its method. -/
def Placed (path : String) (inputs : ℕ → List Input) (outputs : List Stack.Output) (write p method : ℕ) : Prop :=
  ∃ m data, ((method, m), write, data) ∈ tied path inputs outputs p

/-- A write whose method resolved. -/
def Resolved (path : String) (inputs : ℕ → List Input) (outputs : List Stack.Output) (write : ℕ) : Prop :=
  ∃ p method event, Placed path inputs outputs write p method ∧ .js (.returned method (.ok event)) ∈ portOutputs p outputs

/-! ### Calls -/

variable {s s' : Stack} {out outputs : List Stack.Output} {path : String} {inputs inputs' : ℕ → List Input}

/-- **A step of the stream**, with the call it makes. -/
theorem stream_call {c c' : Connection} {input : Stream.Input} {argument : Settlement ℕ} {made : List Stream.Output}
    (h : c.step (.stream input argument) = some (c', made)) : c.admits input = true ∧
    ∃ stream, c.stream.step input = some (stream, made) ∧
      ((∀ output ∈ made, output.noted) ∧ c' = { c.spent input with stream := stream } ∨
      ∃ output kind rest, input = .proceed ∧ c.stream.todo = .call output kind :: rest ∧ made = [output] ∧
        stream.todo = .outside kind :: rest ∧ Connection.call { c with stream := stream } argument output = some c') := by
  obtain ⟨hadmits, h⟩ := Option.ite_none_right_eq_some.1 (show (if c.admits input then _ else none) = _ from h)
  split at h
  · cases h
  rename_i stream made' hstream
  obtain ⟨c₁, hcalls, heq⟩ := Option.map_eq_some_iff.1 h
  obtain ⟨rfl, rfl⟩ := Prod.mk.inj heq
  refine ⟨hadmits, stream, hstream, ?_⟩
  rcases Stream.SerialPortStream.step_calls hstream with hnoted | ⟨output, kind, rest, rfl, htodo, rfl, htodo', -⟩
  · rw [foldlM_noted hnoted] at hcalls
    cases hcalls
    exact .inl ⟨hnoted, rfl⟩
  · simp only [List.foldlM_cons, List.foldlM_nil, bind_pure] at hcalls
    exact .inr ⟨output, kind, rest, rfl, htodo, rfl, htodo', hcalls⟩

/-- A call that runs no method: none of a write, and nothing is done for one. -/
theorem call_quiet {c c' : Connection} {argument : Settlement ℕ} {output : Stream.Output}
    (h : c.call argument output = some c') (hno : ∀ p m, c.target argument output ≠ some (p, .ok m)) :
    c'.stream = c.stream ∧ c'.calls = c.calls ∧ output.submitted? = none ∧
      ∀ answer ∈ c'.answers, answer ∈ c.answers ∨ ∃ error, answer.2 = .error error := by
  have hsubmitted : output.submitted? = none := by
    cases output with
    | write port write data => exact absurd rfl (hno port _)
    | writev port write chunks => exact absurd rfl (hno port _)
    | _ => rfl
  unfold Connection.call at h
  split at h
  · cases h
    exact ⟨rfl, rfl, rfl, fun answer hmem => .inl hmem⟩
  split at h
  · cases h
    exact ⟨rfl, rfl, hsubmitted, fun answer hmem => .inl hmem⟩
  · cases h
    refine ⟨rfl, rfl, hsubmitted, fun answer hmem => ?_⟩
    rcases List.mem_append.1 hmem with hold | hnew
    · exact .inl hold
    · obtain ⟨promise, -, rfl⟩ := List.mem_map.1 hnew
      exact .inr ⟨_, rfl⟩
  · rename_i htarget
    exact absurd htarget (hno _ _)

/-- A method of a port makes a promise, so that the port changes. -/
theorem invoked_ne {c c' : Client} {m : Method} {made : List Binding.Output}
    (h : Binding.client.step c (.invoke m) = some (c', made)) : c' ≠ c := by
  have hstep : c.step (.invoke m) = some (c', made) := h
  have hlt : c.promises < c'.promises := by
    cases Client.step_runs hstep with
    | invoke m hcalling => exact Client.invoke_promises hcalling m
  rintro rfl
  exact lt_irrefl _ hlt

theorem target_data {c : Connection} {argument : Settlement ℕ} {output : Stream.Output} {p : ℕ} {m : Method}
    (h : c.target argument output = some (p, .ok m)) :
    m.writes = true ∧ (∃ write, addressed? output = some (p, write, m.data)) ∨ m.writes = false ∧ output.submitted? = none := by
  have hlength (bytes : Buffer) : (Binding.JsBuffer.ofBytes bytes).length = (Binding.JsBuffer.ofBytes bytes).bytes.length := rfl
  cases output with
  | write port write data =>
    cases h
    refine .inl ⟨rfl, write, ?_⟩
    have hdata : (Method.write (.ofBytes data)).data = data := by
      rw [Method.data_eq ?_]
      · exact List.append_nil data
      · intro buffer hmem
        rw [List.mem_singleton.1 (show buffer ∈ [Binding.JsBuffer.ofBytes data] from hmem)]
        exact hlength data
    rw [hdata]
    rfl
  | writev port write chunks =>
    cases h
    refine .inl ⟨rfl, write, ?_⟩
    have hdata : (Method.writev (chunks.map .ofBytes)).data = chunks.flatten := by
      rw [Method.data_eq ?_]
      · show (chunks.map Binding.JsBuffer.ofBytes).flatMap Binding.JsBuffer.bytes = _
        rw [List.flatMap_map]
        exact List.flatMap_id'
      · intro buffer hmem
        obtain ⟨chunk, -, rfl⟩ := List.mem_map.1 hmem
        exact hlength chunk
    rw [hdata]
    rfl
  | operation port operation baudRate =>
    obtain ⟨-, hmethod⟩ := Prod.mk.inj (Option.some.inj h)
    exact .inr ⟨(controlMethod_serves hmethod).2, rfl⟩
  | bindingCancel | close | startReading | readChunk =>
    cases h
    exact .inr ⟨rfl, rfl⟩
  | _ => cases h

theorem port_append (s' : Stack) (h : s.Paired)
    (hports : s'.connection.ports = s.connection.ports ++ [Client.new s.connection.path 1])
    (hnatives : s'.natives = s.natives ++ [({} : NativePort)]) (p : ℕ) :
    s'.port p = if p = s.connection.ports.length then some (System.new s.connection.path 1) else s.port p := by
  unfold Stack.port
  rw [hports, hnatives]
  by_cases hlast : p = s.connection.ports.length
  · have hget : (s.natives ++ [({} : NativePort)])[p]? = some {} := by
      rw [hlast, ← h, List.getElem?_concat_length]
    rw [if_pos hlast, hget, hlast, List.getElem?_concat_length]
    rfl
  · rw [if_neg hlast]
    rcases Nat.lt_or_gt_of_ne hlast with hlt | hgt
    · rw [List.getElem?_append_left hlt, List.getElem?_append_left (show p < s.natives.length from h ▸ hlt)]
    · have hgone : (s.connection.ports ++ [Client.new s.connection.path 1])[p]? = none := by
        refine List.getElem?_eq_none ?_
        rw [List.length_append]
        exact hgt
      rw [hgone, List.getElem?_eq_none hgt.le]

/-- **The stream hears of a step of a port**: nothing more is reported done. -/
theorem heard_silent (h : Whole outputs s) {p : ℕ} {t : System} (hport : s.port p = some t) {j : Binding.Input}
    (hturns : s.connection.turns j = true) {c' : Client} {made : List Binding.Output}
    (hjs : Binding.client.step t.js j = some (c', made)) (hreopens : ¬Reopens t.js c') {emitted : List Stream.Output}
    (haccounted : Accounted emitted s.connection.stream.traffic) :
    SerialPortStream.Silent s.connection.stream (s.connection.receive p c' made).stream ∧
      Accounted emitted (s.connection.receive p c' made).stream.traffic := by
  rcases h.steered.told hturns (port_parts hport).1 hjs hreopens with ⟨⟨answer, rfl⟩, -⟩ | ⟨htodo, hguided⟩
  · have hstream : (s.connection.receive p c' made).stream = s.connection.stream.setOpen p c'.port.isOpen :=
      hear_hookless (answer_silent hjs) p _
    rw [hstream]
    exact ⟨.refl _, haccounted⟩
  · have hwaits : (s.connection.stream.setOpen p c'.port.isOpen).waits = true := by
      rw [SerialPortStream.waits, show (s.connection.stream.setOpen p c'.port.isOpen).todo = [] from htodo]
      rfl
    have hentered {entry : Stream.Entry} {stream : SerialPortStream}
        (hstep : (s.connection.stream.setOpen p c'.port.isOpen).step (.enter entry) = some (stream, [])) :
        Accounted emitted stream.traffic := by
      have hgoes := haccounted.step (Stream.step_own hguided.sound (by simp) hstep).step
      rwa [List.append_nil] at hgoes
    have hheard := turn_heard p (s.connection.stream.setOpen p c'.port.isOpen) hjs
    show SerialPortStream.Silent _ (made.foldl (hear p) _) ∧ Accounted emitted (made.foldl (hear p) _).traffic
    generalize made.foldl (hear p) (s.connection.stream.setOpen p c'.port.isOpen) = stream at hheard ⊢
    cases hheard with
    | nothing => exact ⟨.refl _, haccounted⟩
    | data data =>
      have hstep : (s.connection.stream.setOpen p c'.port.isOpen).step (.enter (.onData p data)) =
        some ((s.connection.stream.setOpen p c'.port.isOpen).onData p data, []) := if_pos hwaits
      have hentry : (s.connection.stream.setOpen p c'.port.isOpen).enter (.onData p data) =
        some ((s.connection.stream.setOpen p c'.port.isOpen).onData p data, []) := rfl
      exact ⟨.enter (s := s.connection.stream.setOpen p c'.port.isOpen) hentry, hentered hstep⟩
    | closed error =>
      have hstep : (s.connection.stream.setOpen p c'.port.isOpen).step (.enter (.onClose p (error.map .error) false)) =
        some ((s.connection.stream.setOpen p c'.port.isOpen).onClose p (error.map .error), []) := if_pos hwaits
      exact ⟨.quiet (s := s.connection.stream.setOpen p c'.port.isOpen) (SerialPortStream.onClose_quiet _ _ _), hentered hstep⟩

/-! ### The invariant -/

/-- **A write is reported done only where the method that ran for it resolved.** -/
structure Tied (path : String) (inputs : ℕ → List Input) (outputs : List Stack.Output) (s : Stack) : Prop where
  run : ∀ p t, s.port p = some t → system.run (System.new path 1) (inputs p) = some (t, portOutputs p outputs)
  fresh : ∀ p, s.port p = none → inputs p = []
  length : ∀ p, (ran path (inputs p)).length = (submissionsTo p (streamOutputs outputs)).length
  data : ∀ p, ∀ pair ∈ tied path inputs outputs p, pair.1.2.data = pair.2.2
  calls : ∀ call ∈ s.connection.calls, ∀ write, call.promise.write? = some write →
    Placed path inputs outputs write call.port call.method
  answers : ∀ answer ∈ s.connection.answers, ∀ write event, answer.1.write? = some write → answer.2 = .ok event →
    Resolved path inputs outputs write
  reports : ∀ write ∈ s.connection.stream.reports, Resolved path inputs outputs write
  written : ∀ write, .written write none ∈ streamOutputs outputs → Resolved path inputs outputs write
  accounted : Accounted (streamOutputs outputs) s.connection.stream.traffic

/-- More is submitted, and run. -/
structure Extends (path : String) (inputs inputs' : ℕ → List Input) (outputs out : List Stack.Output) : Prop where
  tied : ∀ p, ∃ more, Composition.tied path inputs' (outputs ++ out) p = Composition.tied path inputs outputs p ++ more

namespace Extends

theorem placed (h : Extends path inputs inputs' outputs out) {write p method : ℕ} (hplaced : Placed path inputs outputs write p method) :
    Placed path inputs' (outputs ++ out) write p method := by
  obtain ⟨m, data, hmem⟩ := hplaced
  obtain ⟨more, hmore⟩ := h.tied p
  exact ⟨m, data, hmore ▸ List.mem_append_left _ hmem⟩

theorem resolved (h : Extends path inputs inputs' outputs out) {write : ℕ} (hresolved : Resolved path inputs outputs write) :
    Resolved path inputs' (outputs ++ out) write := by
  obtain ⟨p, method, event, hplaced, hmem⟩ := hresolved
  refine ⟨p, method, event, h.placed hplaced, ?_⟩
  rw [portOutputs_append]
  exact List.mem_append_left _ hmem

end Extends

/-- The inputs of one port go on. -/
def advanced (inputs : ℕ → List Input) (q : ℕ) (i : Input) : ℕ → List Input :=
  fun p => if p = q then inputs p ++ [i] else inputs p

namespace Tied

theorem start (path : String) (endOnClose : Bool) (highWaterMark : ℕ) (baudRate : Option ℕ) :
    Tied path (fun _ => []) [] (.new path endOnClose highWaterMark baudRate) :=
  ⟨fun _ _ hport => (nomatch hport), fun _ _ => rfl, fun _ => rfl, fun _ _ hmem => (nomatch hmem), fun _ hmem => (nomatch hmem),
    fun _ hmem => (nomatch hmem), fun _ hmem => (nomatch hmem), fun _ hmem => (nomatch hmem),
    Stream.new_accounted _ _ _ _⟩

theorem still (h : Tied path inputs outputs s) (inputs' : ℕ → List Input) (out : List Stack.Output)
    (hran : ∀ p, ran path (inputs' p) = ran path (inputs p))
    (hout : ∀ p, submissionsTo p (streamOutputs out) = []) : Extends path inputs inputs' outputs out ∧
    (∀ p, (ran path (inputs' p)).length = (submissionsTo p (streamOutputs (outputs ++ out))).length) ∧
    ∀ p, ∀ pair ∈ tied path inputs' (outputs ++ out) p, pair.1.2.data = pair.2.2 := by
  have hsame : ∀ p, tied path inputs' (outputs ++ out) p = tied path inputs outputs p := by
    intro p
    unfold tied
    rw [hran, streamOutputs_append, submissionsTo_append, hout, List.append_nil]
  refine ⟨⟨fun p => ⟨[], by rw [hsame, List.append_nil]⟩⟩, fun p => ?_, fun p pair hmem => ?_⟩
  · rw [hran, streamOutputs_append, submissionsTo_append, hout, List.append_nil]
    exact h.length p
  · rw [hsame] at hmem
    exact h.data p pair hmem

theorem submits (h : Tied path inputs outputs s) {inputs' : ℕ → List Input} {out : List Stack.Output} {q method write : ℕ}
    {m : Method}
    (hran : ∀ p, ran path (inputs' p) = ran path (inputs p) ++ if p = q then [(method, m)] else [])
    (hout : addressed (streamOutputs out) = [(q, write, m.data)]) : Extends path inputs inputs' outputs out ∧
    (∀ p, (ran path (inputs' p)).length = (submissionsTo p (streamOutputs (outputs ++ out))).length) ∧
    (∀ p, ∀ pair ∈ tied path inputs' (outputs ++ out) p, pair.1.2.data = pair.2.2) ∧
    Placed path inputs' (outputs ++ out) write q method := by
  have hsub : ∀ p, submissionsTo p (streamOutputs (outputs ++ out)) = submissionsTo p (streamOutputs outputs) ++
      if p = q then [(write, m.data)] else [] := by
    intro p
    rw [streamOutputs_append, submissionsTo_append]
    refine congrArg _ ?_
    unfold submissionsTo
    rw [hout]
    by_cases hsame : p = q
    · subst hsame
      simp
    · rw [if_neg hsame, List.filter_cons_of_neg (by simpa using Ne.symm hsame)]
      rfl
  have htied : ∀ p, tied path inputs' (outputs ++ out) p = tied path inputs outputs p ++
      if p = q then [((method, m), write, m.data)] else [] := by
    intro p
    unfold tied
    rw [hran, hsub, List.zip_append (h.length p)]
    refine congrArg _ ?_
    split <;> rfl
  refine ⟨⟨fun p => ⟨_, htied p⟩⟩, fun p => ?_, fun p pair hmem => ?_, m, m.data, ?_⟩
  · rw [hran, hsub, List.length_append, List.length_append, h.length p]
    refine congrArg _ ?_
    split <;> rfl
  · rw [htied] at hmem
    rcases List.mem_append.1 hmem with hold | hnew
    · exact h.data p pair hold
    · split at hnew
      · rw [List.mem_singleton.1 hnew]
      · cases hnew
  · rw [htied, if_pos rfl]
    exact List.mem_append_right _ (List.mem_singleton_self _)

/-- **The stream goes on**: what it reports done was resolved. -/
theorem goes (h : Tied path inputs outputs s) (hsound : Stream.Sound false s.connection.stream) {input : Stream.Input}
    (hadmits : s.connection.admits input = true) {stream : SerialPortStream} {made : List Stream.Output}
    (hstep : s.connection.stream.step input = some (stream, made)) :
    (∀ write ∈ stream.reports, Resolved path inputs outputs write) ∧
      (∀ write, .written write none ∈ made → Resolved path inputs outputs write) ∧
      Accounted (streamOutputs outputs ++ made) stream.traffic := by
  obtain ⟨hmade, hreports⟩ := SerialPortStream.step_reports hstep
  refine ⟨fun write hmem => ?_, fun write hmem => h.reports write (hmade write hmem),
    h.accounted.step (Stream.step_own hsound (by rintro port value rfl; cases hadmits) hstep).step⟩
  rcases hreports write hmem with hold | ⟨index, port, rfl, hpromise⟩
  · exact h.reports write hold
  · obtain ⟨-, hsettles⟩ := Bool.and_eq_true_iff.1 hadmits
    rw [hpromise] at hsettles
    obtain ⟨answer, hanswer, hone⟩ := List.any_eq_true.1
      (show (s.connection.answers.any fun answer => answer.1 = .writing port write &&
        settlement (.writing port write) answer.2 = .done) = true from hsettles)
    obtain ⟨hsame, hdone⟩ := Bool.and_eq_true_iff.1 hone
    obtain ⟨promise, result⟩ := answer
    cases result with
    | error error => exact absurd (of_decide_eq_true hdone) nofun
    | ok event =>
      refine h.answers _ hanswer write event ?_ rfl
      rw [show promise = .writing port write from of_decide_eq_true hsame]
      rfl

/-- **The stream goes on**, and runs no method of a port. -/
theorem spoken (h : Tied path inputs outputs s) (hsteered : Steered s.connection) {input : Stream.Input}
    {argument : Settlement ℕ} {c : Connection} {made : List Stream.Output} {natives : List NativePort}
    (hstep : s.connection.step (.stream input argument) = some (c, made))
    (hports : ∀ p a a', s.connection.ports[p]? = some a → a' ≠ a → c.ports ≠ s.connection.ports.set p a')
    (hrun : ∀ p t, Stack.port ⟨c, natives⟩ p = some t → system.run (System.new path 1) (inputs p) = some (t, portOutputs p outputs))
    (hfresh : ∀ p, Stack.port ⟨c, natives⟩ p = none → inputs p = []) :
    Tied path inputs (outputs ++ made.map .stream) ⟨c, natives⟩ := by
  obtain ⟨hadmits, stream, hstream, hcall⟩ := stream_call hstep
  obtain ⟨hreports, hwritten, haccounted⟩ := h.goes hsteered.guided.sound hadmits hstream
  obtain ⟨hsame, hcalls, hsubmitted, hanswers⟩ : c.stream = stream ∧ c.calls = s.connection.calls ∧
      (∀ output ∈ made, output.submitted? = none) ∧
      ∀ answer ∈ c.answers, answer ∈ s.connection.answers ∨ ∃ error, answer.2 = .error error := by
    rcases hcall with ⟨hnoted, rfl⟩ | ⟨output, kind, rest, rfl, -, rfl, -, hcall⟩
    · obtain ⟨-, hcalls, hanswers, -⟩ := spent_parts s.connection input
      refine ⟨rfl, hcalls, fun output hmem => ?_, fun answer hmem => .inl (hanswers.subset hmem)⟩
      have hnoted := hnoted output hmem
      cases output with
      | write | writev => cases hnoted
      | _ => rfl
    · have hno : ∀ p m, Connection.target { s.connection with stream := stream } argument output ≠ some (p, .ok m) := by
        intro p m htarget
        cases call_dialed hcall with
        | opened houtput =>
          rw [houtput] at htarget
          cases htarget
        | answered _ _ _ hno => exact hno p m htarget
        | invoked _ _ hc hclient => exact hports _ _ _ hc (invoked_ne hclient) rfl
      obtain ⟨hsame, hcalls, hnone, hanswers⟩ := call_quiet hcall hno
      refine ⟨hsame, hcalls, fun output' hmem => ?_, hanswers⟩
      rw [List.mem_singleton.1 hmem]
      exact hnone
  obtain ⟨hextends, hlength, hdata⟩ := h.still inputs (made.map .stream) (fun _ => rfl) fun p => by
    rw [streamOutputs_stream]
    exact submissionsTo_nil hsubmitted p
  refine ⟨fun p t hport => ?_, hfresh, hlength, hdata, fun call hmem write hwrite => ?_, fun answer hmem write event hwrite hok => ?_,
    fun write hmem => ?_, fun write hmem => ?_, ?_⟩
  · rw [portOutputs_append, portOutputs_stream, List.append_nil]
    exact hrun p t hport
  · exact hextends.placed (h.calls call (hcalls ▸ hmem) write hwrite)
  · rcases hanswers answer hmem with hold | ⟨error, herror⟩
    · exact hextends.resolved (h.answers answer hold write event hwrite hok)
    · cases hok.symm.trans herror
  · exact hextends.resolved (hreports write (hsame ▸ hmem))
  · rw [streamOutputs_append, streamOutputs_stream] at hmem
    rcases List.mem_append.1 hmem with hold | hmem
    · exact hextends.resolved (h.written write hold)
    · exact hextends.resolved (hwritten write hmem)
  · rw [streamOutputs_append, streamOutputs_stream]
    show Accounted _ c.stream.traffic
    rw [hsame]
    exact haccounted

/-- **One port takes a step**; the others stand still. -/
theorem runs (h : Tied path inputs outputs s) (s' : Stack) (out : List Stack.Output) {p : ℕ} {i : Input} {t t' : System} {made : List Output}
    (hport : s.port p = some t) (hstep : system.step t i = some (t', made))
    (hports : ∀ q, s'.port q = if q = p then some t' else s.port q)
    (hout : ∀ q, portOutputs q out = if q = p then made else []) :
    (∀ q t, s'.port q = some t →
      system.run (System.new path 1) (advanced inputs p i q) = some (t, portOutputs q (outputs ++ out))) ∧
    (∀ q, s'.port q = none → advanced inputs p i q = []) ∧
    ∀ q, ran path (advanced inputs p i q) = ran path (inputs q) ++ if q = p then t.begun i else [] := by
  refine ⟨fun q t₁ hport' => ?_, fun q hnone => ?_, fun q => ?_⟩
  · rw [portOutputs_append, hout]
    rw [hports] at hport'
    unfold advanced
    split at hport'
    · rename_i hsame
      subst hsame
      cases hport'
      rw [if_pos rfl, if_pos rfl]
      exact Machine.run_append (h.run q t hport) (Machine.run_singleton hstep)
    · rename_i hother
      rw [if_neg hother, if_neg hother, List.append_nil]
      exact h.run q t₁ hport'
  · rw [hports] at hnone
    unfold advanced
    split at hnone
    · cases hnone
    · rename_i hother
      rw [if_neg hother]
      exact h.fresh q hnone
  · unfold advanced ran
    split
    · rename_i hsame
      subst hsame
      exact Machine.collect_snoc (h.run q t hport) i
    · exact (List.append_nil _).symm

/-- **A port has taken a step**: what it returned is an answer. -/
theorem receives (path : String) (inputs : ℕ → List Input) (outputs : List Stack.Output) {c : Connection} {p : ℕ} {made : List Output}
    (hcalls : ∀ call ∈ c.calls, ∀ write, call.promise.write? = some write →
      Placed path inputs outputs write call.port call.method)
    (hanswers : ∀ answer ∈ c.answers, ∀ write event, answer.1.write? = some write → answer.2 = .ok event →
      Resolved path inputs outputs write)
    (hmade : made ⊆ portOutputs p outputs) (a : Client) :
    (∀ call ∈ (c.receive p a (jsOutputs made)).calls, ∀ write, call.promise.write? = some write →
      Placed path inputs outputs write call.port call.method) ∧
    ∀ answer ∈ (c.receive p a (jsOutputs made)).answers, ∀ write event, answer.1.write? = some write →
      answer.2 = .ok event → Resolved path inputs outputs write := by
  refine ⟨fun call hmem => hcalls call (List.mem_of_mem_filter hmem), fun answer hmem write event hwrite hok => ?_⟩
  rcases List.mem_append.1 hmem with hold | hnew
  · exact hanswers answer hold write event hwrite hok
  · obtain ⟨call, hcall, hsome⟩ := List.mem_filterMap.1 hnew
    obtain ⟨result, hresult, rfl⟩ := Option.map_eq_some_iff.1 hsome
    obtain ⟨rfl, hreturned⟩ := Call.result?_eq_some hresult
    obtain rfl : result = .ok event := hok
    exact ⟨call.port, call.method, event, hcalls call hcall write hwrite, hmade (mem_jsOutputs.1 hreturned)⟩

/-- **The stream calls a method of a port.** -/
theorem invoked (h : Tied path inputs outputs s) (hpaired : s.Paired) (hsteered : Steered s.connection)
    {argument : Settlement ℕ} {c : Connection} {output : Stream.Output} {p : ℕ} {m : Method} {t t' : System} {made : List Output}
    (hcall : s.connection.step (.stream .proceed argument) = some (c, [output]))
    (htarget : s.connection.target argument output = some (p, .ok m)) (hport : s.port p = some t)
    (hstep : system.step t (.js (.invoke m)) = some (t', made)) (hports : c.ports = s.connection.ports.set p t'.js) :
    Tied path (advanced inputs p (.js (.invoke m))) (outputs ++ .stream output :: made.map (.port p))
      ⟨c, s.natives.set p t'.native⟩ := by
  have hjs := js_step hstep
  obtain ⟨hadmits, stream, hstream, hcalls⟩ := stream_call hcall
  obtain ⟨hreports, hwritten, haccounted⟩ := h.goes hsteered.guided.sound hadmits hstream
  have hc : c = (Connection.link { s.connection with stream := stream } output p t.js.promises).receive p t'.js (jsOutputs made) := by
    rcases hcalls with ⟨-, rfl⟩ | ⟨output', kind, rest, -, -, heq, -, hcalls⟩
    · obtain ⟨hsame, -⟩ := spent_parts s.connection .proceed
      refine absurd ?_ (invoked_ne hjs)
      have hget := List.getElem?_set_self (l := s.connection.ports) (a := t'.js) (port_lt hport)
      rw [← hports] at hget
      exact Option.some.inj (hget.symm.trans ((congrArg (·[p]?) hsame).trans (port_parts hport).1))
    · cases heq
      have htarget' : Connection.target { s.connection with stream := stream } argument output = some (p, .ok m) :=
        (target_ports rfl argument output).trans htarget
      cases call_dialed hcalls with
      | opened houtput =>
        rw [houtput] at htarget
        cases htarget
      | answered _ _ _ hno => exact absurd htarget' (hno p m)
      | invoked _ hsame hc hclient =>
        cases hsame.symm.trans htarget'
        cases (port_parts hport).1.symm.trans hc
        cases hjs.symm.trans hclient
        rfl
  obtain ⟨hruns, hfresh, hran⟩ := h.runs ⟨c, s.natives.set p t'.native⟩ (.stream output :: made.map (.port p)) hport hstep (fun q => port_set hpaired hport hports rfl q) fun q => by
      rw [portOutputs_cons_stream]
      split
      · rename_i hsame
        rw [hsame, portOutputs_self]
      · rename_i hother
        exact portOutputs_other (Ne.symm hother) _
  have hstreamed : streamOutputs (Stack.Output.stream output :: made.map (.port p)) = [output] := by
    rw [streamOutputs_cons_stream, streamOutputs_port]
  -- the promise of the call is that of the write which is submitted
  obtain ⟨hextends, hlength, hdata, hplaced⟩ :
      Extends path inputs (advanced inputs p (.js (.invoke m))) outputs (.stream output :: made.map (.port p)) ∧
      (∀ q, (ran path (advanced inputs p (.js (.invoke m)) q)).length =
        (submissionsTo q (streamOutputs (outputs ++ .stream output :: made.map (.port p)))).length) ∧
      (∀ q, ∀ pair ∈ tied path (advanced inputs p (.js (.invoke m))) (outputs ++ .stream output :: made.map (.port p)) q,
        pair.1.2.data = pair.2.2) ∧
      ∀ write data, output.submitted? = some (write, data) → Placed path (advanced inputs p (.js (.invoke m)))
        (outputs ++ .stream output :: made.map (.port p)) write p t.js.promises := by
    rcases target_data htarget with ⟨hwrites, write, haddressed⟩ | ⟨hwrites, hsubmitted⟩
    · obtain ⟨hextends, hlength, hdata, hplaced⟩ := h.submits (fun q => by
        rw [hran]
        show _ ++ (if q = p then if m.writes then [(t.js.promises, m)] else [] else []) = _
        rw [if_pos hwrites]) (by rw [hstreamed]; exact List.filterMap_cons_some haddressed)
      refine ⟨hextends, hlength, hdata, fun write' data hsubmitted => ?_⟩
      have hsame := (addressed_submitted output).symm.trans (congrArg (Option.map Prod.snd) haddressed)
      cases hsubmitted.symm.trans hsame
      exact hplaced
    · obtain ⟨hextends, hlength, hdata⟩ := h.still (advanced inputs p (.js (.invoke m)))
        (.stream output :: made.map (.port p)) (fun q => by
          rw [hran]
          show _ ++ (if q = p then if m.writes then [(t.js.promises, m)] else [] else []) = _
          rw [hwrites, if_neg Bool.false_ne_true, ite_self, List.append_nil]) fun q => by
          rw [hstreamed]
          exact submissionsTo_nil (fun output' hmem => by rw [List.mem_singleton.1 hmem]; exact hsubmitted) q
      exact ⟨hextends, hlength, hdata, fun write data hsome => nomatch hsubmitted.symm.trans hsome⟩
  obtain ⟨hcalls', hanswers'⟩ := receives path (advanced inputs p (.js (.invoke m)))
    (outputs ++ .stream output :: made.map (.port p))
    (c := Connection.link { s.connection with stream := stream } output p t.js.promises) (p := p) (fun call hmem write hwrite => by
      rcases List.mem_append.1 hmem with hold | hnew
      · exact hextends.placed (h.calls call hold write hwrite)
      · obtain ⟨promise, hpromise, rfl⟩ := List.mem_map.1 hnew
        obtain ⟨data, hsubmitted⟩ := promised_write (Option.mem_toList.1 hpromise) hwrite
        exact hplaced write data hsubmitted)
    (fun answer hmem write event hwrite hok => hextends.resolved (h.answers answer hmem write event hwrite hok))
    (by
      rw [portOutputs_append, portOutputs_cons_stream, portOutputs_self]
      exact List.subset_append_right _ _) t'.js
  have hsame : c.stream = stream.setOpen p t'.js.port.isOpen := by
    rw [hc]
    exact hear_hookless (invoke_opened hjs).2.1 p _
  refine ⟨hruns, hfresh, hlength, hdata, fun call hmem => hcalls' call (hc ▸ hmem), fun answer hmem => hanswers' answer (hc ▸ hmem),
    fun write hmem => hextends.resolved (hreports write ?_), fun write hmem => ?_, ?_⟩
  · rw [show (Stack.connection ⟨c, s.natives.set p t'.native⟩).stream = _ from hsame] at hmem
    exact hmem
  · rw [streamOutputs_append, hstreamed] at hmem
    rcases List.mem_append.1 hmem with hold | hmem
    · exact hextends.resolved (h.written write hold)
    · exact hextends.resolved (hwritten write hmem)
  · rw [streamOutputs_append, hstreamed]
    show Accounted _ c.stream.traffic
    rw [hsame]
    exact haccounted

theorem turned (h : Tied path inputs outputs s) (s' : Stack) (hpaired : s.Paired) {p : ℕ} {i : Input} {t t' : System} {made : List Output}
    (hport : s.port p = some t) (hi : ∀ m, i ≠ .js (.invoke m)) (hstep : system.step t i = some (t', made))
    (hports : s'.connection.ports = s.connection.ports.set p t'.js) (hnatives : s'.natives = s.natives.set p t'.native) :
    (∀ q t, s'.port q = some t →
      system.run (System.new path 1) (advanced inputs p i q) = some (t, portOutputs q (outputs ++ made.map (.port p)))) ∧
    (∀ q, s'.port q = none → advanced inputs p i q = []) ∧
    Extends path inputs (advanced inputs p i) outputs (made.map (.port p)) ∧
    (∀ q, (ran path (advanced inputs p i q)).length =
      (submissionsTo q (streamOutputs (outputs ++ made.map (.port p)))).length) ∧
    ∀ q, ∀ pair ∈ tied path (advanced inputs p i) (outputs ++ made.map (.port p)) q, pair.1.2.data = pair.2.2 := by
  obtain ⟨hruns, hfresh, hran⟩ := h.runs s' (made.map (.port p)) hport hstep
    (fun q => port_set hpaired hport hports hnatives q) fun q => by
      split
      · rename_i hsame
        rw [hsame, portOutputs_self]
      · rename_i hother
        exact portOutputs_other (Ne.symm hother) _
  have hbegun : t.begun i = [] := by
    cases i with
    | js j =>
      cases j with
      | invoke m => exact absurd rfl (hi m)
      | _ => rfl
    | _ => rfl
  refine ⟨hruns, hfresh, h.still (advanced inputs p i) (made.map (.port p)) (fun q => ?_) fun q => ?_⟩
  · rw [hran, hbegun, ite_self, List.append_nil]
  · rw [streamOutputs_port]
    rfl

/-- **A port goes on.** -/
theorem answered (h : Tied path inputs outputs s) (hpaired : s.Paired) (hwhole : Whole outputs s) {p : ℕ} {i : Input}
    {j : Binding.Input} {t t' : System} {made : List Output} (hport : s.port p = some t)
    (hturns : s.connection.turns j = true) (hjs : Binding.client.step t.js j = some (t'.js, jsOutputs made))
    (hi : ∀ m, i ≠ .js (.invoke m)) (hstep : system.step t i = some (t', made)) :
    Tied path (advanced inputs p i) (outputs ++ made.map (.port p)) (s.receive p t' made) := by
  have hreopens := (hwhole.served p t hport).engaged.once.not_reopens hstep
  obtain ⟨hruns, hfresh, hextends, hlength, hdata⟩ := h.turned (s.receive p t' made) hpaired hport hi hstep rfl rfl
  obtain ⟨hsilent, haccounted⟩ := heard_silent hwhole hport hturns hjs hreopens h.accounted
  obtain ⟨hcalls, hanswers⟩ := receives path (advanced inputs p i) (outputs ++ made.map (.port p)) (c := s.connection) (p := p)
    (fun call hmem write hwrite => hextends.placed (h.calls call hmem write hwrite))
    (fun answer hmem write event hwrite hok => hextends.resolved (h.answers answer hmem write event hwrite hok))
    (by
      rw [portOutputs_append, portOutputs_self]
      exact List.subset_append_right _ _) t'.js
  refine ⟨hruns, hfresh, hlength, hdata, hcalls, hanswers, fun write hmem => hextends.resolved (h.reports write (hsilent write hmem)),
    fun write hmem => hextends.resolved (h.written write ?_), ?_⟩
  · rwa [streamOutputs_append, streamOutputs_port, List.append_nil] at hmem
  · rw [streamOutputs_append, streamOutputs_port, List.append_nil]
    exact haccounted

/-- **Every step of the stack keeps it.** -/
theorem step (h : Tied path inputs outputs s) (hported : Ported path outputs s) (hwhole : Whole outputs s) {i : Stack.Input}
    (hstep : stack.step s i = some (s', out)) : ∃ inputs', Tied path inputs' (outputs ++ out) s' := by
  have hpaired := hported.paired
  cases stack_stackStep hstep with
  | @stream input argument c made hcall hports =>
    refine ⟨inputs, h.spoken hwhole.steered hcall (fun p a a' hget hne heq => hne ?_) (fun p t hport => ?_) fun p hport => ?_⟩
    · have hset := List.getElem?_set_self (l := s.connection.ports) (a := a') (List.getElem?_eq_some_iff.1 hget).1
      rw [← heq, hports, hget] at hset
      exact (Option.some.inj hset).symm
    · refine h.run p t (Eq.trans ?_ hport)
      unfold Stack.port
      rw [hports]
    · refine h.fresh p (Eq.trans ?_ hport)
      unfold Stack.port
      rw [hports]
  | @opened input argument c made hcall hports =>
    have happend := port_append ⟨c, s.natives ++ [({} : NativePort)]⟩ hpaired hports rfl
    refine ⟨inputs, h.spoken hwhole.steered hcall (fun p a a' hget hne heq => ?_) (fun p t hport => ?_) fun p hport => ?_⟩
    · have hlength := congrArg List.length (hports.symm.trans heq)
      rw [List.length_append, List.length_set, List.length_singleton] at hlength
      omega
    · rw [happend] at hport
      split at hport
      · rename_i hlast
        have hnone : s.port p = none := (port_none hpaired).2 hlast.ge
        cases hport
        rw [h.fresh p hnone, hported.none p hnone, hported.path_eq]
        rfl
      · exact h.run p t hport
    · rw [happend] at hport
      split at hport
      · cases hport
      · exact h.fresh p hport
  | invoked hcall htodo htarget hport hsystem hports =>
    exact ⟨_, h.invoked hpaired hwhole.steered hcall htarget hport hsystem hports⟩
  | port hcall hport hturns hjs hi hsystem => exact ⟨_, h.answered hpaired hwhole hport hturns hjs hi hsystem⟩
  | @native p i t t' made hport hjs hpassed hsystem =>
    obtain ⟨hruns, hfresh, hextends, hlength, hdata⟩ := h.turned { s with natives := s.natives.set p t'.native }
      hpaired hport (fun _ heq => Input.noConfusion heq) hsystem (by
        rw [hjs]
        obtain ⟨hlt, hget⟩ := List.getElem?_eq_some_iff.1 (port_parts hport).1
        rw [← hget, List.set_getElem_self]) rfl
    refine ⟨_, hruns, hfresh, hlength, hdata, fun call hmem write hwrite => hextends.placed (h.calls call hmem write hwrite),
      fun answer hmem write event hwrite hok => hextends.resolved (h.answers answer hmem write event hwrite hok),
      fun write hmem => hextends.resolved (h.reports write hmem), fun write hmem => hextends.resolved (h.written write ?_), ?_⟩
    · rwa [streamOutputs_append, streamOutputs_port, List.append_nil] at hmem
    · rw [streamOutputs_append, streamOutputs_port, List.append_nil]
      exact h.accounted

/-- **Every reachable state**, as long as no callback queue is torn down. -/
theorem of_run (path : String) (endOnClose : Bool) (highWaterMark : ℕ) (baudRate : Option ℕ) {inputs : List Stack.Input}
    (hrun : stack.run (.new path endOnClose highWaterMark baudRate) inputs = some (s, outputs)) (huntorn : s.Untorn) :
    ∃ inputs, Tied path inputs outputs s := by
  refine ((Machine.run_rule_all (fun _ outputs (s : Stack) =>
    Ported path outputs s ∧ (s.Untorn → Whole outputs s ∧ ∃ inputs, Tied path inputs outputs s)) ?_ ?_ hrun).2 huntorn).2
  · exact ⟨.start path endOnClose highWaterMark baudRate, fun _ =>
      ⟨⟨new_steered path endOnClose highWaterMark baudRate, nofun, fun p t hport => (nomatch hport), rfl⟩,
        _, .start path endOnClose highWaterMark baudRate⟩⟩
  · rintro - outputs s i s' out ⟨hported, h⟩ hstep
    refine ⟨hported.step hstep, fun huntorn' => ?_⟩
    have huntorn := hported.untorn hstep huntorn'
    obtain ⟨hwhole, inputs, htied⟩ := h huntorn
    exact ⟨hwhole.step hported.paired hported.none huntorn hstep, htied.step hported hwhole hstep⟩

theorem submitted (h : Tied path inputs outputs s) {write : ℕ} (hresolved : Resolved path inputs outputs write) :
    ∃ data p t, s.port p = some t ∧ (write, data) ∈ handings (streamOutputs outputs) ∧
      (write, data) ∈ submissionsTo p (streamOutputs outputs) := by
  obtain ⟨p, method, event, ⟨m, data, hmem⟩, -⟩ := hresolved
  obtain ⟨hran, hsubmitted⟩ := List.of_mem_zip hmem
  obtain ⟨t, hport⟩ : ∃ t, s.port p = some t := by
    rw [← Option.ne_none_iff_exists']
    intro hnone
    rw [h.fresh p hnone] at hran
    cases hran
  refine ⟨data, p, t, hport, ?_, hsubmitted⟩
  exact ((List.sublist_append_left _ _).trans h.accounted.requested).subset ((submissionsTo_sublist p _).subset hsubmitted)

theorem map_snd (h : Tied path inputs outputs s) (p : ℕ) :
    (tied path inputs outputs p).map Prod.snd = submissionsTo p (streamOutputs outputs) :=
  List.map_snd_zip (h.length p).ge

/-- **The method that ran for a write of a port resolved**, if the write is reported done. -/
theorem returned (h : Tied path inputs outputs s) {p : ℕ} {pair : (ℕ × Method) × ℕ × Buffer}
    (hmem : pair ∈ tied path inputs outputs p) (hwritten : .written pair.2.1 none ∈ streamOutputs outputs) :
    ∃ event, .js (.returned pair.1.1 (.ok event)) ∈ portOutputs p outputs := by
  obtain ⟨q, method, event, ⟨m, data, hplaced⟩, hreturned⟩ := h.written _ hwritten
  have hp : (pair.2.1, pair.2.2) ∈ submissionsTo p (streamOutputs outputs) := (List.of_mem_zip hmem).2
  obtain ⟨rfl, -⟩ := submitted_once h.accounted hp (List.of_mem_zip hplaced).2
  have hnodup : ((tied path inputs outputs p).map fun pair => pair.2.1).Nodup := by
    have hmap : (tied path inputs outputs p).map (fun pair => pair.2.1) =
        (submissionsTo p (streamOutputs outputs)).map Prod.fst := by
      rw [← h.map_snd p, List.map_map]
      rfl
    rw [hmap]
    exact (submissions_nodup h.accounted).sublist ((submissionsTo_sublist p _).map _)
  have hsame : method = pair.1.1 := congrArg (·.1.1) (List.inj_on_of_nodup_map hnodup hplaced hmem rfl)
  exact ⟨event, hsame ▸ hreturned⟩

end Tied

/-- **A write that is reported done is on the device.**  Over every run of the stack, as long as no callback queue is torn
down, and whatever else happens meanwhile (opens that fail, ports that close and are opened again, reads, control calls,
writes that fail or are cut short):

* a write whose callback is called without an error was handed to the stream, and submitted to one of the ports it opened;
* the device of each port has taken the bytes of those of its writes, each as the application gave them, and in the order in
  which they were submitted. -/
theorem output_conveyed (path : String) (endOnClose : Bool) (highWaterMark : ℕ) (baudRate : Option ℕ)
    (inputs : List Stack.Input) (s : Stack) (outputs : List Stack.Output)
    (hrun : stack.run (.new path endOnClose highWaterMark baudRate) inputs = some (s, outputs)) (huntorn : s.Untorn) :
    (∀ write, .written write none ∈ streamOutputs outputs → ∃ data p t, s.port p = some t ∧
      (write, data) ∈ handings (streamOutputs outputs) ∧ (write, data) ∈ submissionsTo p (streamOutputs outputs)) ∧
    ∀ p t, s.port p = some t →
      (((submissionsTo p (streamOutputs outputs)).filter fun write => .written write.1 none ∈ streamOutputs outputs).flatMap
        Prod.snd).Sublist ((log (natives (portOutputs p outputs))).filterMap byte?) := by
  obtain ⟨inputs', h⟩ := Tied.of_run path endOnClose highWaterMark baudRate hrun huntorn
  refine ⟨fun write hwritten => h.submitted (h.written write hwritten), fun p t hport => ?_⟩
  have hsublist : (((tied path inputs' outputs p).filter fun pair => .written pair.2.1 none ∈ streamOutputs outputs).map
      Prod.fst).Sublist (ran path (inputs' p)) := by
    have hfst : (tied path inputs' outputs p).map Prod.fst = ran path (inputs' p) := List.map_fst_zip (h.length p).le
    rw [← hfst]
    exact List.filter_sublist.map _
  have hdevice := resolved_in_order inRange_one (h.run p t hport) (huntorn p t hport) hsublist fun write hmem => by
    obtain ⟨pair, hpair, rfl⟩ := List.mem_map.1 hmem
    obtain ⟨hin, hwritten⟩ := List.mem_filter.1 hpair
    exact h.returned hin (of_decide_eq_true hwritten)
  have hbytes : (((tied path inputs' outputs p).filter fun pair => .written pair.2.1 none ∈ streamOutputs outputs).map
        Prod.fst).flatMap (fun write => write.2.data) =
      ((submissionsTo p (streamOutputs outputs)).filter fun write => .written write.1 none ∈ streamOutputs outputs).flatMap
        Prod.snd := by
    rw [← h.map_snd p, List.filter_map, List.flatMap_map, List.flatMap_map]
    exact List.flatMap_congr fun pair hmem => h.data p pair (List.mem_of_mem_filter hmem)
  exact hbytes ▸ hdevice

/-- The stream writes three bytes, of which the device takes one at once. -/
def openAndWrite : List Stack.Input :=
  openAndRead.take 11 ++
    [onApplication (.enter (._write [1, 2, 3])), onApplication .proceed, .port 0 (.native (.advance .pending)),
    .port 0 (.native (.advance .pending)), .port 0 (.native (.advance (.ready 1))), .port 0 (.native (.advance .pending)),
    .port 0 (.native (.advance .pending)), .port 0 (.native (.advance .pending)), .port 0 .answer, onApplication .returns,
    .port 0 (.native (.reactor .run)), .port 0 (.native (.reactor .run)), .port 0 (.native (.reactor .received)),
    .port 0 (.native (.reactor .run)), .port 0 (.native (.reactor .run)),
    .port 0 (.native (.reactor (.transfer .pending (.ready 2)))), .port 0 (.native (.reactor .run)),
    .port 0 (.native (.reactor .run)), .port 0 (.native (.reactor .run)), .port 0 (.native (.reactor .run)),
    .port 0 (.callback fun _ => .ok 0), .port 0 (.js (.resume 0)), onApplication (.settle 0 .done), onApplication .proceed]

theorem output_conveyed_write : ∃ s outputs,
    stack.run (.new "/dev/ttyS0" false 65536 none) openAndWrite = some (s, outputs) ∧
    .written 0 none ∈ streamOutputs outputs ∧
    (log (natives (portOutputs 0 outputs))).filterMap byte? = [1, 2, 3] ∧
    List.Sublist [1, 2, 3] ((log (natives (portOutputs 0 outputs))).filterMap byte?) := by
  obtain ⟨s, outputs, t, hrun, huntorn, hwritten, hsubmitted, hlog, hport⟩ : ∃ s outputs t,
      stack.run (.new "/dev/ttyS0" false 65536 none) openAndWrite = some (s, outputs) ∧ s.Untorn ∧
      .written 0 none ∈ streamOutputs outputs ∧ submissionsTo 0 (streamOutputs outputs) = [(0, [1, 2, 3])] ∧
      (log (natives (portOutputs 0 outputs))).filterMap byte? = [1, 2, 3] ∧ s.port 0 = some t := by
    refine ⟨_, _, _, rfl, ?_, by decide, by rfl, by decide, rfl⟩
    intro p t hport
    cases p with
    | zero =>
      cases hport
      rfl
    | succ p => cases hport
  have h := (output_conveyed "/dev/ttyS0" false 65536 none openAndWrite s outputs hrun huntorn).2 0 t hport
  rw [hsubmitted] at h
  exact ⟨s, outputs, hrun, hwritten, hlog, by simpa [hwritten] using h⟩

end NodeSerialport.Composition
