import NodeSerialport.Stream.Refinement
/-!
# Input of a stream

Data comes in by the hook `onData`, or by a read that resolves.  Both push it while the stream is open, and drop it while
a `close` is under way, which may yet fail.

* `produced`, `lost` — the bytes an input brings for the present port, and those that find the stream not open;
* `pushed` — the bytes that are pushed; `run_pushed` — what is pushed is what came in while the stream was open;
* `input_kept` — nothing that was produced is missing exactly if nothing came in while the stream was not open.
-/

namespace NodeSerialport.Stream

open Parsers (Buffer)
open Lib (Machine)

/-! ### What is produced and what is pushed -/

/-- The bytes an input brings for the present port. -/
def SerialPortStream.produced (s : SerialPortStream) (input : Input) : Buffer := (s.arrived input).getD []

/-- Those that come in while the stream is open. -/
def SerialPortStream.taken (s : SerialPortStream) (input : Input) : Buffer := (s.gained input).getD []

/-- Those that come in while it is not. -/
def SerialPortStream.lost (s : SerialPortStream) (input : Input) : Buffer := if s.isOpen then [] else s.produced input

/-- The bytes that are pushed. -/
def pushed (outputs : List Output) : Buffer := (outputs.filterMap Output.pushed?).flatten

@[simp] theorem pushed_append (a b : List Output) : pushed (a ++ b) = pushed a ++ pushed b := by
  simp [pushed]

@[simp] theorem pushed_nil : pushed [] = [] := rfl

@[simp] theorem pushed_handed (write : ℕ) (data : Buffer) (rest : List Output) :
    pushed (.handed write data :: rest) = pushed rest := rfl

@[simp] theorem pushed_written (write : ℕ) (error : Option Binding.SerialError) (rest : List Output) :
    pushed (.written write error :: rest) = pushed rest := rfl

theorem pushed_cons_of_none {output : Output} (h : output.pushed? = none) (rest : List Output) :
    pushed (output :: rest) = pushed rest := by
  simp [pushed, h]

theorem pushed_eq_nil {outputs : List Output} (h : ∀ output ∈ outputs, output.pushed? = none) : pushed outputs = [] := by
  have hnone : outputs.filterMap Output.pushed? = [] := List.filterMap_eq_nil_iff.2 h
  rw [pushed, hnone]
  rfl

theorem taken_add_lost (s : SerialPortStream) (input : Input) :
    s.produced input = s.taken input ++ s.lost input := by
  by_cases hopen : s.isOpen <;>
    simp [SerialPortStream.taken, SerialPortStream.lost, SerialPortStream.gained, SerialPortStream.produced, hopen]

/-- What is pushed, and is left to be pushed, grows by what comes in while the stream is open. -/
theorem Traffic.Step.pushed {drops : Prop} {t t' : Traffic} {data : Option Buffer} {out : List Output}
    (h : t.Step drops data out t') : Stream.pushed out ++ Stream.pushed t'.due = Stream.pushed t.due ++ data.getD [] := by
  cases h with
  | still hout =>
    have hnone : Stream.pushed out = [] := pushed_eq_nil fun output hmem => by
      exact (Output.of_silent (hout output hmem)).2.2.2
    simp [hnone]
  | @asks output houtput =>
    obtain ⟨-, -, hnone⟩ := Output.of_asks houtput
    simp [pushed_cons_of_none hnone]
  | @data bytes output houtput hdue =>
    have hrest : Stream.pushed t.due = [] := pushed_eq_nil hdue
    have hcons : Stream.pushed (output :: t.due) = bytes ++ Stream.pushed t.due := by simp [Stream.pushed, houtput]
    simp [hcons, hrest]
  | @call output due _ hdue =>
    have hcons : Stream.pushed (output :: due) = Stream.pushed [output] ++ Stream.pushed due := pushed_append [output] due
    simp [hdue, hcons]
  | wait bytes _ => simp
  | @submit bytes output _ houtput =>
    obtain ⟨-, -, hnone, -⟩ := Output.of_submitted houtput
    simp [pushed_cons_of_none hnone]
  | @resume write bytes output _ houtput =>
    obtain ⟨-, -, hnone, -⟩ := Output.of_submitted houtput
    simp [pushed_cons_of_none hnone]
  | fail error _ => simp
  | settle error _ hdue => simp [hdue]
  | dropped _ hdue => simp [hdue]
  | abandoned _ _ => simp

/-! ### Runs -/

/-- What is pushed, and is left to be pushed, is what came in while the stream was open. -/
theorem run_pushed {s s' : SerialPortStream} {inputs : List Input} {outputs : List Output} (hsound : Sound true s)
    (htodo : s.todo = []) (hrun : stream.run s inputs = some (s', outputs)) :
    Sound true s' ∧ pushed outputs ++ pushed s'.traffic.due = stream.collect SerialPortStream.taken s inputs := by
  induction inputs using List.reverseRecOn generalizing s' outputs with
  | nil =>
    cases hrun
    refine ⟨hsound, ?_⟩
    simp [SerialPortStream.traffic, htodo, Machine.collect]
  | append_singleton pre input ih =>
    obtain ⟨s₁, out, rest, hpre, hlast, rfl⟩ := Machine.run_append_inv hrun
    obtain ⟨s₂, out', rest', hstep, hnil, rfl⟩ := Machine.run_cons_inv hlast
    cases hnil
    obtain ⟨hs₁, hpushed⟩ := ih hpre
    have hgoes := step_goes hs₁ (by simp) hstep
    have hgrown : pushed out' ++ pushed s'.traffic.due = pushed s₁.traffic.due ++ s₁.taken input := hgoes.step.pushed
    refine ⟨hgoes.sound, ?_⟩
    rw [Machine.collect_snoc hpre, ← hpushed, List.append_nil, pushed_append, List.append_assoc, hgrown,
      List.append_assoc]

theorem pushed_waiting {wild : Bool} {s : SerialPortStream} (h : Sound wild s) (hwaits : s.waits) : pushed s.traffic.due = [] := by
  refine pushed_eq_nil fun output hmem => ?_
  obtain ⟨write, error, rfl⟩ := (SerialPortStream.clear_of_waits h.orderly hwaits).moving_written output hmem
  rfl

theorem produced_length {s s' : SerialPortStream} {inputs : List Input} {outputs : List Output}
    (hrun : stream.run s inputs = some (s', outputs)) :
    (stream.collect SerialPortStream.produced s inputs).length =
      (stream.collect SerialPortStream.taken s inputs).length + (stream.collect SerialPortStream.lost s inputs).length := by
  induction inputs using List.reverseRecOn generalizing s' outputs with
  | nil => rfl
  | append_singleton pre input ih =>
    obtain ⟨s₁, out, rest, hpre, -, -⟩ := Machine.run_append_inv hrun
    have hstep := congrArg List.length (taken_add_lost s₁ input)
    rw [Machine.collect_snoc hpre, Machine.collect_snoc hpre, Machine.collect_snoc hpre]
    simp only [List.length_append] at hstep ⊢
    have hold := ih hpre
    omega

/-- **What is pushed is what was produced** for the connections of a run, exactly if no byte came in while the stream
was not open. -/
theorem input_kept (features : ℕ → Features) (endOnClose : Bool) (highWaterMark : ℕ) (baudRate : Option ℕ)
    {inputs : List Input} {s : SerialPortStream} {outputs : List Output}
    (hrun : stream.run (.new features endOnClose highWaterMark baudRate) inputs = some (s, outputs)) (hwaits : s.waits) :
    pushed outputs = stream.collect SerialPortStream.produced (.new features endOnClose highWaterMark baudRate) inputs ↔
    stream.Along (fun _ _ s input => s.produced input ≠ [] → s.isOpen)
      (.new features endOnClose highWaterMark baudRate) inputs := by
  obtain ⟨hs, hpushed⟩ := run_pushed (new_sound true features endOnClose highWaterMark baudRate) rfl hrun
  rw [pushed_waiting hs hwaits, List.append_nil] at hpushed
  have hlength := produced_length hrun
  have hlost : ∀ (s : SerialPortStream) (input : Input),
      s.lost input = [] ↔ (s.produced input ≠ [] → s.isOpen = true) := by
    intro s input
    by_cases hopen : s.isOpen
    · simp [SerialPortStream.lost, hopen]
    · simp [SerialPortStream.lost, hopen]
  rw [hpushed]
  constructor
  · intro heq
    rw [heq] at hlength
    have hnil : stream.collect SerialPortStream.lost (.new features endOnClose highWaterMark baudRate) inputs = [] :=
      List.length_eq_zero_iff.1 (by omega)
    intro pre input post hsplit s₁ out hpre
    exact (hlost s₁ input).1 ((Machine.collect_eq_nil hrun).1 hnil pre input post hsplit s₁ out hpre)
  · intro halong
    refine Machine.collect_congr hrun fun pre input post hsplit s₁ out hpre => ?_
    have hnone := (hlost s₁ input).2 (halong pre input post hsplit s₁ out hpre)
    have hsplit' := taken_add_lost s₁ input
    rw [hnone, List.append_nil] at hsplit'
    exact hsplit'.symm

/-- The `close` of an open port fails; data comes in before it was asked for and after it failed. -/
theorem input_kept_resumed : ∃ s outputs,
    stream.run (.new (fun _ => {}) false 16 none) [.enter (.open none), .proceed, .returns, .settle 0 (.port 0 true),
      .proceed, .returns, .proceed, .proceed, .enter (.onData 0 [6]), .proceed, .returns, .enter (.close none), .proceed,
      .returns, .settle 0 (.rejected .other), .proceed, .returns, .proceed, .enter (.onData 0 [8]), .proceed,
      .returns] = some (s, outputs) ∧
    pushed outputs = [6, 8] ∧
    stream.Along (fun _ _ s input => s.produced input ≠ [] → s.isOpen) (.new (fun _ => {}) false 16 none)
      [.enter (.open none), .proceed, .returns, .settle 0 (.port 0 true),
        .proceed, .returns, .proceed, .proceed, .enter (.onData 0 [6]), .proceed, .returns, .enter (.close none), .proceed,
        .returns, .settle 0 (.rejected .other), .proceed, .returns, .proceed, .enter (.onData 0 [8]), .proceed,
        .returns] := by
  refine ⟨_, _, rfl, by rfl, ?_⟩
  exact (input_kept (fun _ => {}) false 16 none rfl rfl).1 (by rfl)

/-- Data that comes in between the request of a close and its failure is lost. -/
theorem input_dropped : ∃ s outputs,
    stream.run (.new (fun _ => {}) false 16 none) [.enter (.open none), .proceed, .returns, .settle 0 (.port 0 true),
      .proceed, .returns, .proceed, .proceed, .enter (.close none), .proceed, .returns, .enter (.onData 0 [7]),
      .settle 0 (.rejected .other), .proceed, .returns, .proceed, .enter (.onData 0 [8]), .proceed, .returns] =
      some (s, outputs) ∧
    s.isOpen ∧ s.waits ∧ pushed outputs = [8] ∧
    stream.collect SerialPortStream.produced (.new (fun _ => {}) false 16 none)
      [.enter (.open none), .proceed, .returns, .settle 0 (.port 0 true),
        .proceed, .returns, .proceed, .proceed, .enter (.close none), .proceed, .returns, .enter (.onData 0 [7]),
        .settle 0 (.rejected .other), .proceed, .returns, .proceed, .enter (.onData 0 [8]), .proceed, .returns] =
      [7, 8] :=
  ⟨_, _, rfl, rfl, rfl, by rfl, by rfl⟩

end NodeSerialport.Stream
