import NodeSerialport.Stream.Traffic
/-!
# The stream and its traffic

Every step of the stream is one step of its traffic, and keeps the order of what is left to do: a call that moves data
is the next one to be made, so that no exception drops it.  Where ports are `wild`, one that was closed may say that it is open
while another is being opened; then the callback of a failed write may be dropped.

* `Sound` — what every step keeps; `Goes` — a step that keeps it and is one of the traffic;
* `arrived`, `gained` — the data an input brings for the present port, and for the open one;
* `enter_goes`, `returned_goes`, `thrown_goes`, `perform_goes`, `settled_goes` — the parts of `step_goes`;
* `step_apart`, `step_own` — the same where no port opens while the stream closes.
-/

namespace NodeSerialport.Stream

open Parsers (Buffer)
open Binding (SerialError)

/-! ### What every step keeps -/

variable {wild : Bool} {drops : Prop}

/-- What every step keeps. -/
structure Sound (wild : Bool) (s : SerialPortStream) : Prop where
  orderly : Orderly wild s.todo
  apart : wild = false → Apart s
  doomed : Doomed s

/-- A step that keeps the order of the tasks, and is one of the abstract machine. -/
structure Goes (wild : Bool) (drops : Prop) (s : SerialPortStream) (data : Option Buffer) (out : List Output)
    (s' : SerialPortStream) : Prop where
  sound : Sound wild s'
  step : s.traffic.Step drops data out s'.traffic

/-- A state a function starts in, once what it is about was taken off the lists. -/
structure Ready (wild : Bool) (s s₀ : SerialPortStream) : Prop where
  clear : Clear wild s₀.todo
  apart : wild = false → Apart s₀
  doomed : Doomed s₀
  traffic : s₀.traffic = s.traffic

section

variable {s s₀ s' : SerialPortStream}

theorem Ready.still {out : List Output} (h : Ready wild s s₀) (hout : ∀ output ∈ out, output.silent)
    (horderly : Orderly wild s'.todo) (hapart : wild = false → Apart s') (hdoomed : Doomed s') (htraffic : s'.traffic = s₀.traffic) :
    Goes wild drops s none out s' := by
  refine ⟨⟨horderly, hapart, hdoomed⟩, ?_⟩
  rw [htraffic, h.traffic]
  exact .still hout

theorem Ready.quiet {out : List Output} (h : Ready wild s s₀) (hquiet : Quiet s₀ s') (hout : ∀ output ∈ out, output.silent) :
    Goes wild drops s none out s' :=
  h.still hout (.clear (hquiet.todo.clear h.clear)) (hquiet.frame.apart ∘ h.apart) (hquiet.doomed h.doomed)
    (hquiet.traffic h.clear)

theorem asks_moves {output : Output} (h : output.asks) : output.moves ∧ output.noted = false := by
  cases output with
  | startReading | readChunk | read => exact ⟨rfl, rfl⟩
  | _ => cases h

theorem Ready.reads (h : Ready wild s s₀) (hreads : Reads s₀ s') : Goes wild drops s none [] s' := by
  cases hreads with
  | quiet hquiet => exact h.quiet hquiet (by simp)
  | @asks output kind _ hframe hpromises houtput hkind htodo =>
    obtain ⟨hmoves, hnoted⟩ := asks_moves houtput
    obtain ⟨added, hpromises, hadded⟩ := hpromises
    have hwrites : added.filterMap Promise.write? = [] := by
      rw [List.filterMap_eq_nil_iff]
      intro promise hmem
      obtain ⟨port, length, rfl⟩ := hadded promise hmem
      rfl
    have htraffic : s'.traffic = { s.traffic with due := output :: s.traffic.due } := by
      rw [← h.traffic]
      simp [SerialPortStream.traffic, hframe.waitingWrite, hframe.writing, hframe.writes, hpromises, hwrites, htodo,
        moving_call hmoves]
    refine ⟨⟨?_, hframe.apart ∘ h.apart, ?_⟩, ?_⟩
    · rw [htodo]
      exact .call hnoted hkind h.clear
    · intro error hmem
      rw [hframe.destroyed]
      exact h.doomed error (by simpa [htodo] using hmem)
    · rw [htraffic]
      exact .asks houtput

theorem Ready.push {data : Buffer} (h : Ready wild s s₀) (output : Option Buffer) (houtput : output.getD [] = data)
    (htodo : s'.todo = .call (.push output) .listener :: s₀.todo)
    (hwaiting : s'._waitingWrite = s₀._waitingWrite) (hwriting : s'.writing = s₀.writing) (hwrites : s'.writes = s₀.writes)
    (hpromises : s'.promises = s₀.promises) (hapart : wild = false → Apart s') (hdestroyed : s'.destroyed = s₀.destroyed) :
    Goes wild drops s (some data) [] s' := by
  have htraffic : s'.traffic = { s.traffic with due := .push output :: s.traffic.due } := by
    rw [← h.traffic]
    simp [SerialPortStream.traffic, hwaiting, hwriting, hwrites, hpromises, htodo]
    rfl
  refine ⟨⟨?_, hapart, ?_⟩, ?_⟩
  · rw [htodo]
    exact .call rfl rfl h.clear
  · intro error hmem
    rw [hdestroyed]
    exact h.doomed error (by simpa [htodo] using hmem)
  · rw [htraffic]
    refine .data (by simp [Output.pushed?, houtput]) ?_
    rw [← h.traffic]
    intro output hmem
    obtain ⟨write, error, rfl⟩ := h.clear.moving_written output hmem
    rfl

end

/-- Data that comes in for the present port. -/
def SerialPortStream.arrived (s : SerialPortStream) : Input → Option Buffer
  | .enter (.onData port data) => if s.port = some port then some data else none
  | .settle index result =>
    match s.promises[index]?, result with
    | some (.reading port _), .data data => if s.port = some port then some data else none
    | some (.reading port length), .bytesRead bytesRead buffer =>
      if s.port = some port then (SerialPortStream.readData length bytesRead buffer).toOption else none
    | _, _ => none
  | _ => none

/-- Data that comes in for the present port while it is open. -/
def SerialPortStream.gained (s : SerialPortStream) (input : Input) : Option Buffer :=
  if s.isOpen then s.arrived input else none

theorem gained_of_none {s : SerialPortStream} {input : Input} (h : s.arrived input = none) : s.gained input = none := by
  simp [SerialPortStream.gained, h]

namespace SerialPortStream

variable {s s' : SerialPortStream} {out : List Output}

theorem clear_of_waits (h : Orderly wild s.todo) (hwaits : s.waits) : Clear wild s.todo := by
  unfold waits at hwaits
  generalize s.todo = todo at h hwaits
  cases h with
  | clear hclear => exact hclear
  | _ => simp [Task.waiting] at hwaits

theorem ready_self (h : Sound wild s) (hclear : Clear wild s.todo) : Ready wild s s := ⟨hclear, h.apart, h.doomed, rfl⟩

theorem doomed_first {tasks : List Task} (h : Doomed s) (htasks : ∀ error, .destroy error ∉ tasks) :
    Doomed (s.first tasks) := by
  intro error hmem
  obtain hmem | hmem := List.mem_append.1 hmem
  · exact absurd hmem (htasks error)
  · exact h error hmem

theorem _failWaitingWrite_goes {s₀ : SerialPortStream} (h : Ready wild s s₀) (error : SerialError) :
    Goes wild drops s none [] (s₀._failWaitingWrite error) := by
  obtain ⟨-, heq⟩ | ⟨write, data, hwaiting, heq⟩ := _failWaitingWrite_cases s₀ error
  · rw [heq]
    exact h.quiet (quiet_refl s₀) (by simp)
  · rw [heq]
    have htraffic : ({ s₀ with _waitingWrite := none }.first
        [.call (.written write (some error)) .listener]).traffic =
        { s.traffic with waiting := none, due := .written write (some error) :: s.traffic.due } := by
      rw [← h.traffic]
      rfl
    refine ⟨⟨.call rfl rfl h.clear, h.apart, doomed_first h.doomed (by simp)⟩, ?_⟩
    rw [htraffic]
    have hwaiting' : s.traffic.waiting = some (write, data) := by
      rw [← h.traffic]
      exact hwaiting
    exact .fail error hwaiting'

theorem submit_traffic (s : SerialPortStream) (port write : ℕ) {output : Output} (houtput : output.moves) :
    ((s.await (.writing port write)).first [.call output .binding]).traffic =
      { s.traffic with promised := s.traffic.promised ++ [write], due := output :: s.traffic.due } := by
  have hdue : moving (.call output .binding :: s.todo) = output :: moving s.todo := moving_call houtput _ _
  simp [traffic, await, first, Promise.write?, hdue]

theorem _write_goes (h : Sound wild s) (hclear : Clear wild s.todo) (hwriting : s.writing = none) (data : Buffer) :
    Goes wild drops s none [.handed s.writes data] (s.hand._write s.writes data) := by
  obtain ⟨-, heq⟩ | ⟨port, -, -, heq⟩ := _write_cases s.hand s.writes data
  · rw [heq]
    exact ⟨⟨.clear hclear, h.apart, h.doomed⟩, .wait data hwriting⟩
  · rw [heq]
    refine ⟨⟨.call rfl rfl hclear, h.apart, doomed_first h.doomed (by simp)⟩, ?_⟩
    rw [submit_traffic s.hand port s.writes rfl]
    exact .submit data hwriting rfl

theorem _writev_goes (h : Sound wild s) (hclear : Clear wild s.todo) (hwriting : s.writing = none) (chunks : List Buffer) :
    Goes wild drops s none [.handed s.writes chunks.flatten] (s.hand._writev s.writes chunks) := by
  obtain heq | ⟨port, -, -, heq⟩ := _writev_cases s.hand s.writes chunks
  · rw [heq]
    exact _write_goes h hclear hwriting _
  · rw [heq]
    refine ⟨⟨.call rfl rfl hclear, h.apart, doomed_first h.doomed (by simp)⟩, ?_⟩
    rw [submit_traffic s.hand port s.writes rfl]
    exact .submit chunks.flatten hwriting rfl

/-- A port that says it is open keeps apart, unless it is the present one, which was closed, while another is opened. -/
theorem setOpen_apart (port : ℕ) {value : Bool} (h : Apart s)
    (hvalue : value = true → s.port = some port → s.ports port = false → s.opening = false) :
    Apart (s.setOpen port value) := by
  intro hopening
  have hopening' : s.opening = true := hopening
  have hclosed := h hopening'
  cases hport : s.port with
  | none => simp [setOpen, hport]
  | some current =>
    have hcurrent : s.ports current = false := by simpa [hport] using hclosed
    by_cases hsame : current = port
    · subst hsame
      cases hv : value with
      | false => simp [setOpen, hport]
      | true =>
        rw [hvalue hv hport hcurrent] at hopening'
        cases hopening'
    · simp [setOpen, hport, hsame, hcurrent]

/-- A call from outside. -/
theorem enter_goes (h : Sound wild s) (hwaits : s.waits) {entry : Entry} (hstep : s.enter entry = some (s', out)) :
    Goes wild drops s (s.gained (.enter entry)) out s' := by
  have hclear := clear_of_waits h.orderly hwaits
  have hready := ready_self h hclear
  cases entry with
  | onData port data =>
    cases hstep
    obtain ⟨hport, hopen, heq⟩ | ⟨hnot, heq⟩ := onData_cases s port data
    · have hgained : s.gained (.enter (.onData port data)) = some data := by simp [gained, arrived, hport, hopen]
      rw [hgained, heq]
      exact hready.push (some data) rfl rfl rfl rfl rfl rfl h.apart rfl
    · have hgained : s.gained (.enter (.onData port data)) = none := by
        by_cases hport : s.port = some port
        · have hclosed : s.isOpen = false := by simpa [hport] using hnot
          simp [gained, hclosed]
        · simp [gained, arrived, hport]
      rw [hgained, heq]
      exact hready.quiet (quiet_refl s) (by simp)
  | «open» cb =>
    cases hstep
    rw [gained_of_none rfl]
    exact hready.quiet (open_quiet s _) (by simp)
  | close cb =>
    cases hstep
    rw [gained_of_none rfl]
    exact hready.quiet (close_quiet s _ _) (by simp)
  | destroy error =>
    cases hstep
    rw [gained_of_none rfl]
    split
    · exact hready.quiet (quiet_refl s) (by simp)
    · have hready' : Ready wild s ({ s with destroyed := true }.first [.destroy error]) :=
        ⟨.destroying hwaits hclear, h.apart, fun _ _ => rfl, rfl⟩
      exact _failWaitingWrite_goes hready' _
  | operation operation baudRate cb =>
    cases hstep
    rw [gained_of_none rfl]
    exact hready.quiet (_operation_quiet s _ _ _) (by simp)
  | _read length =>
    rw [gained_of_none rfl]
    simp only [enter] at hstep
    split at hstep
    · simp at hstep
    · cases hstep
      exact hready.reads (_read_reads s length)
  | _write data =>
    rw [gained_of_none rfl]
    simp only [enter] at hstep
    split at hstep
    · simp at hstep
    · rename_i hnot
      cases hstep
      exact _write_goes h hclear (by simp at hnot; exact hnot.2) data
  | _writev chunks =>
    rw [gained_of_none rfl]
    simp only [enter] at hstep
    split at hstep
    · simp at hstep
    · rename_i hnot
      cases hstep
      exact _writev_goes h hclear (by simp at hnot; exact hnot.2) chunks
  | onClose port error closed =>
    cases hstep
    rw [gained_of_none rfl]
    have hready' : Ready wild s (if closed then s.setOpen port false else s) := by
      split
      · exact ⟨hclear, fun hw => setOpen_apart port (h.apart hw) (by simp), h.doomed, rfl⟩
      · exact hready
    exact hready'.quiet (onClose_quiet _ port error) (by simp)

theorem orderly_of_outside {kind : Kind} {rest : List Task} (h : Orderly wild (.outside kind :: rest)) :
    Orderly wild rest ∧ (kind ≠ .binding → kind ≠ .listener → Clear wild rest) ∧ (kind.cancels → rest = [.catchOpen]) := by
  cases h with
  | clear h =>
    cases h with
    | inner hinner hrest =>
      refine ⟨.clear hrest, fun _ _ => hrest, fun hcancels => ?_⟩
      simp [Task.inner, hcancels] at hinner
    | closing hrest => exact ⟨.call rfl rfl hrest, fun hkind => absurd rfl hkind, by simp [Kind.cancels]⟩
    | dropping _ hrest => exact ⟨.call rfl rfl hrest, fun _ hkind => absurd rfl hkind, by simp [Kind.cancels]⟩
    | canceling _ => exact ⟨.clear (.inner rfl .nil), fun _ _ => .inner rfl .nil, fun _ => rfl⟩

theorem clear_of_listener {rest : List Task} (h : Orderly wild (.outside .listener :: rest)) : Clear wild rest ∨
    (wild = true ∧ ∃ write error later, rest = .call (.written write error) .listener :: later ∧ Clear wild later) := by
  cases h with
  | clear h =>
    cases h with
    | inner _ hrest => exact .inl hrest
    | dropping hwild hrest => exact .inr ⟨hwild, _, _, _, rfl, hrest⟩
    | canceling hcancels => cases hcancels

theorem returned_goes (h : Sound wild s) {kind : Kind} {rest : List Task} (htodo : s.todo = .outside kind :: rest) :
    Goes wild drops s none [] ({ s with todo := rest }.returned kind) := by
  obtain ⟨horderly, -, -⟩ := orderly_of_outside (htodo ▸ h.orderly)
  have hdue : moving rest = moving s.todo := by rw [htodo]; rfl
  have htraffic : ({ s with todo := rest } : SerialPortStream).traffic = s.traffic := by simp [traffic, hdue]
  have hdoomed : Doomed { s with todo := rest } := fun error hmem => h.doomed error (by simp [htodo, hmem])
  have hsame : Goes wild drops s none [] { s with todo := rest } := by
    refine ⟨⟨horderly, h.apart, hdoomed⟩, ?_⟩
    rw [htraffic]
    exact .still (by simp)
  cases kind with
  | opening => exact ⟨⟨horderly, h.apart, hdoomed⟩, hsame.step⟩
  | canceling port cb =>
    refine ⟨⟨horderly, h.apart, hdoomed⟩, ?_⟩
    have htraffic' : (({ s with todo := rest } : SerialPortStream).await (.canceling port cb)).traffic = s.traffic := by
      rw [← htraffic]
      simp [traffic, await, Promise.write?]
    show s.traffic.Step drops none [] (({ s with todo := rest } : SerialPortStream).await (.canceling port cb)).traffic
    rw [htraffic']
    exact .still (by simp)
  | _ => exact hsame

theorem throw_call (s : SerialPortStream) (output : Output) (kind : Kind) (rest : List Task) (reason : Thrown) :
    ({ s with todo := .call output kind :: rest } : SerialPortStream).throw reason =
      ({ s with todo := rest } : SerialPortStream).throw reason := rfl

theorem thrown_goes (h : Sound wild s) {kind : Kind} {rest : List Task} (htodo : s.todo = .outside kind :: rest)
    (reason : Thrown) (hdrops : wild = true → kind = .listener →
      (∃ write error later, rest = .call (.written write error) .listener :: later) → drops) :
    Goes wild drops s none [] ({ s with todo := rest }.thrown reason kind) := by
  obtain ⟨-, hclear, -⟩ := orderly_of_outside (htodo ▸ h.orderly)
  have hdue : moving rest = moving s.todo := by rw [htodo]; rfl
  have hready (hclear : Clear wild rest) : Ready wild s { s with todo := rest } :=
    ⟨hclear, h.apart, fun error hmem => h.doomed error (by simp [htodo, hmem]), by simp [traffic, hdue]⟩
  cases kind with
  | listener =>
    rcases clear_of_listener (htodo ▸ h.orderly) with hclear | ⟨hwild, write, error, later, rfl, hlater⟩
    · exact (hready hclear).quiet (throw_quiet _ reason) (by simp)
    · show Goes wild drops s none [] (({ s with todo := .call (.written write error) .listener :: later } : SerialPortStream).throw reason)
      rw [throw_call]
      have hquiet := throw_quiet { s with todo := later } reason
      refine ⟨⟨.clear (hquiet.todo.clear hlater), hquiet.frame.apart ∘ h.apart, hquiet.doomed fun error hmem => ?_⟩, ?_⟩
      · exact h.doomed error (by rw [htodo]; exact List.mem_cons_of_mem _ (List.mem_cons_of_mem _ hmem))
      · rw [hquiet.traffic hlater]
        have hpending : s.traffic.due = .written write error :: moving later := by rw [traffic, htodo]; rfl
        exact .dropped (hdrops hwild rfl ⟨write, error, later, rfl⟩) hpending
  | binding => exact returned_goes h htodo
  | opening => exact returned_goes h htodo
  | startReading port length => exact (hready (hclear (by simp) (by simp))).reads (_readError_reads _ port reason length)
  | canceling port cb => exact (hready (hclear (by simp) (by simp))).quiet (canceled_quiet _ port cb (some reason)) (by simp)

theorem _resumeIO_goes {s₀ : SerialPortStream} (h : Ready wild s s₀) : Goes wild drops s none [] ( _resumeIO s₀) := by
  obtain ⟨-, heq⟩ | ⟨-, -, -, heq⟩ | ⟨port, write, data, -, -, -, hwaiting, heq⟩ := _resumeIO_cases s₀
  · rw [heq]
    exact h.quiet (quiet_refl s₀) (by simp)
  · rw [heq]
    exact h.reads (resumeRead_reads s₀)
  · rw [heq]
    have hclear : Clear wild (.resumeRead :: s₀.todo) := .inner rfl h.clear
    have hdoomed : Doomed ({ s₀ with _waitingWrite := none }.first [.resumeRead]) := fun error hmem =>
      h.doomed error (by simpa [first] using hmem)
    refine ⟨⟨.call rfl rfl hclear, h.apart, doomed_first hdoomed (by simp)⟩, ?_⟩
    rw [submit_traffic _ port write rfl]
    have htraffic : ({ s₀ with _waitingWrite := none }.first [.resumeRead]).traffic =
        { s.traffic with waiting := none } := by
      rw [← h.traffic]
      rfl
    rw [htraffic]
    have hwaiting' : s.traffic.waiting = some (write, data) := by
      rw [← h.traffic]
      exact hwaiting
    exact .resume hwaiting' rfl

theorem call_next {output : Output} {kind : Kind} {rest : List Task} (h : Orderly wild (.call output kind :: rest)) :
    Clear wild (.outside kind :: rest) ∧ output.noted = false := by
  cases h with
  | clear hclear =>
    cases hclear with
    | inner hinner hrest =>
      simp only [Task.inner, Task.plain, Bool.and_eq_true, Bool.not_eq_true'] at hinner
      have hkind : kind.cancels = false := by
        cases kind <;> simp_all [Kind.plain, Kind.cancels]
      exact ⟨.inner (by simp [Task.inner, hkind]) hrest, hinner.1.2⟩
    | canceling hcancels => simp [Task.cancels] at hcancels
  | call hnoted hkind hrest => exact ⟨.inner (by simp [Task.inner, hkind]) hrest, hnoted⟩
  | closing hrest => exact ⟨.closing hrest, rfl⟩
  | dropping hwild hrest => exact ⟨.dropping hwild hrest, rfl⟩
  | canceling hkind => exact ⟨.canceling hkind, rfl⟩

theorem call_goes (h : Sound wild s) {output : Output} {kind : Kind} {rest : List Task}
    (htodo : s.todo = .call output kind :: rest)
    (hstep : ({ s with todo := rest } : SerialPortStream).perform (.call output kind) = some (s', out)) :
    Goes wild drops s none out s' := by
  have hnext := call_next (htodo ▸ h.orderly)
  cases hstep
  refine ⟨⟨.clear hnext.1, h.apart, fun error hmem => h.doomed error (by simpa [first, htodo] using hmem)⟩, ?_⟩
  have hdue : moving (.outside kind :: rest) = moving rest := rfl
  by_cases hmoves : output.moves
  · have hpending : s.traffic.due = output :: moving rest := by
      rw [traffic, htodo]
      exact moving_call hmoves kind rest
    have hcall : s.traffic.Step drops none [output] _ := .call hmoves hpending
    simpa [traffic, first, hdue] using hcall
  · have hpending : moving rest = moving s.todo := by simp [htodo, moving, hmoves]
    have hends : output.ends = false := by
      cases output with
      | written _ _ => exact absurd rfl hmoves
      | _ => rfl
    have hsilent : ∀ output' ∈ [output], output'.silent := by
      simpa using silent_of_moves (by simpa using hmoves) hnext.2
    have hstill : s.traffic.Step drops none [output] s.traffic := .still hsilent
    simpa [traffic, first, hdue, hpending, hends] using hstill

/-- A function goes on with the next task. -/
theorem perform_goes (h : Sound wild s) {task : Task} {rest : List Task} (htodo : s.todo = task :: rest)
    (hstep : ({ s with todo := rest } : SerialPortStream).perform task = some (s', out)) : Goes wild drops s none out s' := by
  have horderly := h.orderly
  rw [htodo] at horderly
  have hready (hcall : task.output? = none) (hclear : Clear wild rest) : Ready wild s { s with todo := rest } := by
    refine ⟨hclear, h.apart, fun error hmem => h.doomed error (by simp [htodo, hmem]), ?_⟩
    have hdue : moving rest = moving s.todo := by rw [htodo, moving, moving, due_cons_of_none hcall]
    simp [traffic, hdue]
  have hrest (hcall : ∀ output kind, task ≠ .call output kind) (houtside : ∀ kind, task ≠ .outside kind) : Clear wild rest := by
    cases horderly with
    | clear hclear => exact hclear.tail houtside
    | call _ _ _ => exact absurd rfl (hcall _ _)
    | closing _ => exact absurd rfl (hcall _ _)
    | dropping _ _ => exact absurd rfl (hcall _ _)
    | canceling _ => exact absurd rfl (hcall _ _)
  cases task with
  | call output kind => exact call_goes h htodo hstep
  | outside kind => simp [perform] at hstep
  | resume =>
    cases hstep
    exact _resumeIO_goes (hready rfl (hrest (by simp) (by simp)))
  | resumeRead =>
    cases hstep
    exact (hready rfl (hrest (by simp) (by simp))).reads (resumeRead_reads _)
  | cancelOpen port cb =>
    cases hstep
    have hcatch : rest = [.catchOpen] := by
      cases horderly with
      | clear hclear =>
        cases hclear with
        | inner hinner _ => simp [Task.inner, Task.plain] at hinner
        | canceling _ => rfl
    subst hcatch
    exact (hready rfl (.inner rfl .nil)).still (by simp) (.canceling rfl) h.apart
      (fun error hmem => by simp [first] at hmem) rfl
  | openFailed error cb =>
    cases hstep
    exact (hready rfl (hrest (by simp) (by simp))).quiet (openFailed_quiet _ error cb) (by simp)
  | destroy error =>
    cases hstep
    exact (hready rfl (hrest (by simp) (by simp))).quiet (tearDown_quiet _ error)
      (by simp [Output.silent, Output.moves, Output.handed?])
  | catchOpen =>
    cases hstep
    exact (hready rfl (hrest (by simp) (by simp))).quiet (quiet_refl _) (by simp)

theorem opening_of_isOpen (h : Apart s) (hopen : s.isOpen) : s.opening = false := by
  rw [isOpen, Bool.and_eq_true] at hopen
  cases hopening : s.opening with
  | false => rfl
  | true => simp [h hopening] at hopen

/-- The end of a write that was rejected comes behind the `close` it may cause; where a port is being opened all the same, that
cancels the open, or throws. -/
theorem _writeError_forms (s : SerialPortStream) (port write : ℕ) (error : Thrown) :
    s._writeError port write error = s.first [.call (.written write (some (asError error))) .listener] ∨
    (s.isOpen ∧ s.port = some port ∧ ((s.opening = false ∧ s._writeError port write error =
      ({ s with closing := true, _closeError := some (disconnectedError (asError error)) }.await
        (.closing port (some (disconnectedError (asError error))))).first
          [.call (.close port) .binding, .call (.written write (some (asError error))) .listener]) ∨
    (s.opening = true ∧ (s._writeError port write error =
        { s with closing := true, _closeError := some (disconnectedError (asError error)) }.first
          [.call .bindingCancel .listener, .call (.written write (some (asError error))) .listener] ∨
      s._opening = false ∧ ∃ reason, s._writeError port write error = ({ s with
        closing := true, _closeError := some (disconnectedError (asError error)) } : SerialPortStream).throw reason)))) := by
  unfold _writeError
  simp only
  split
  · rename_i hcloses
    rw [Bool.and_eq_true, Bool.and_eq_true, decide_eq_true_eq] at hcloses
    obtain ⟨⟨-, hport⟩, hopen⟩ := hcloses
    have hport' : s.port = some port := hport
    have hopen' : s.isOpen = true := hopen
    refine .inr ⟨hopen', hport', ?_⟩
    cases hopening : s.opening with
    | false =>
      refine .inl ⟨rfl, ?_⟩
      rw [close_eq _ none _ hopen hopening hport]
      simp [first, await, hopening]
    | true =>
      have hclosing : s.closing = false := by
        rw [isOpen, Bool.and_eq_true, Bool.not_eq_true'] at hopen'
        exact hopen'.2
      refine .inr ⟨rfl, ?_⟩
      cases hset : s._opening with
      | true => exact .inl (by simp [close, first, hclosing, hopening, hset])
      | false => exact .inr ⟨rfl, _, by simp [close, first, hclosing, hopening, hset]; rfl⟩
  · exact .inl rfl

end SerialPortStream

/-! ### Promises that settle -/

section

variable {α β : Type*} {f : α → Option β} {l : List α} {i : ℕ} {a : α}

theorem eq_of_getElem? (h : l[i]? = some a) : ∃ before after, l = before ++ a :: after ∧ l.eraseIdx i = before ++ after := by
  obtain ⟨hlt, hget⟩ := List.getElem?_eq_some_iff.1 h
  refine ⟨l.take i, l.drop (i + 1), ?_, List.eraseIdx_eq_take_drop_succ l i⟩
  rw [← hget, ← List.drop_eq_getElem_cons hlt, List.take_append_drop]

theorem filterMap_eraseIdx_none (h : l[i]? = some a) (hf : f a = none) :
    (l.eraseIdx i).filterMap f = l.filterMap f := by
  obtain ⟨before, after, heq, herase⟩ := eq_of_getElem? h
  rw [herase, heq]
  simp [hf]

theorem filterMap_eraseIdx_some {b : β} (h : l[i]? = some a) (hf : f a = some b) :
    ∃ before after, l.filterMap f = before ++ b :: after ∧ (l.eraseIdx i).filterMap f = before ++ after := by
  obtain ⟨before, after, heq, herase⟩ := eq_of_getElem? h
  refine ⟨before.filterMap f, after.filterMap f, ?_, ?_⟩
  · rw [heq]
    simp [hf]
  · rw [herase]
    simp

end

namespace SerialPortStream

variable {s s' : SerialPortStream} {out : List Output}

theorem opened_goes {s₀ : SerialPortStream} (h : Ready wild s s₀) (htodo : s₀.todo = []) (port : ℕ) (isOpen : Bool)
    (cb : Option Callback) : Goes wild drops s none [] (s₀.opened port isOpen cb) := by
  have happart : Apart ({ s₀ with _opening := false, opening := false, port := some port }.setOpen port isOpen) := by
    intro hopening
    cases hopening
  unfold opened
  simp only
  split
  · refine _failWaitingWrite_goes (s := s) (Ready.mk ?_ ?_ ?_ ?_) openingCanceled
    · show Clear wild ([.cancelOpen port cb, .catchOpen] ++ s₀.todo)
      rw [htodo]
      exact .canceling rfl
    · exact fun _ => happart
    · intro error hmem
      exact h.doomed error (by simpa [first, setOpen] using hmem)
    · rw [← h.traffic]
      rfl
  · have hready : Ready wild s ({ s₀ with _opening := false, opening := false, port := some port }.setOpen port isOpen) :=
      ⟨h.clear, fun _ => happart, h.doomed, h.traffic ▸ rfl⟩
    exact hready.quiet (quiet_first _ (openCalls_plain cb)) (by simp)

theorem rejected_goes {s₀ : SerialPortStream} (h : Ready wild s s₀) (reason : Thrown) (cb : Option Callback) :
    Goes wild drops s none [] (s₀.rejected reason cb) := by
  refine _failWaitingWrite_goes (s := s) ⟨.inner rfl (.inner rfl h.clear), ?_, ?_, ?_⟩ (asError reason)
  · intro _ hopening
    cases hopening
  · exact doomed_first (s := { s₀ with _opening := false, opening := false }) h.doomed (by simp)
  · rw [← h.traffic]
    rfl

theorem write_settles {before after : List ℕ} {write : ℕ} (error : Option SerialError)
    (hpromised : s.traffic.promised = before ++ write :: after) (hdue : s.traffic.due = [])
    (htraffic : s'.traffic = { s.traffic with promised := before ++ after, due := [.written write error] })
    (hsound : Sound wild s') : Goes wild drops s none [] s' := by
  refine ⟨hsound, ?_⟩
  rw [htraffic]
  exact .settle error hpromised hdue

theorem received_goes {s₀ : SerialPortStream} (h : Ready wild s s₀) (port length : ℕ) (data : Buffer) :
    Goes wild drops s (if s₀.port = some port ∧ s₀.isOpen then some data else none) [] (s₀.received port length data) := by
  obtain ⟨hport, hopen, heq⟩ | ⟨hnot, hreads⟩ := received_cases s₀ port length data
  · rw [if_pos ⟨hport, hopen⟩, heq]
    have hsame := readSettled_same s₀ port
    have htodo : ({ s₀.readSettled port with _readRequested := false }.first
        [.call (.push (if data = [] then none else some data)) .listener]).todo =
        .call (.push (if data = [] then none else some data)) .listener :: s₀.todo := by
      rw [← hsame.todo]
      rfl
    refine h.push (if data = [] then none else some data) ?_ htodo hsame.frame.waitingWrite
      hsame.frame.writing hsame.frame.writes hsame.promises (hsame.frame.apart ∘ h.apart)
      hsame.frame.destroyed
    split
    · rename_i hempty
      exact hempty.symm
    · rfl
  · rw [if_neg hnot]
    exact h.reads hreads

/-- The continuation of a promise. -/
theorem writeFailed_goes (h : Sound wild s) (htodo : s.todo = []) {index port write : ℕ}
    (hpromise : s.promises[index]? = some (.writing port write)) (reason : Thrown)
    (hdrops : wild = true → s.isOpen → s.opening → s._opening = false → drops) :
    Goes wild drops s none [] (({ s with promises := s.promises.eraseIdx index } : SerialPortStream)._writeError port write
      reason) := by
  have hclear : Clear wild s.todo := htodo ▸ .nil
  have hdue : s.traffic.due = [] := by rw [traffic, htodo]; rfl
  obtain ⟨before, after, hbefore, hafter⟩ := filterMap_eraseIdx_some (f := Promise.write?) hpromise rfl
  obtain heq | ⟨hopen, hport, ⟨-, heq⟩ | ⟨hopening, hcancels⟩⟩ :=
    _writeError_forms { s with promises := s.promises.eraseIdx index } port write reason
  · rw [heq]
    refine write_settles (some (asError reason)) hbefore hdue ?_
      ⟨.call rfl rfl hclear, h.apart, doomed_first h.doomed (by simp)⟩
    simp [traffic, first, hafter, htodo]
    rfl
  · -- the port is closed first
    rw [heq]
    refine write_settles (some (asError reason)) hbefore hdue ?_
      ⟨.closing hclear, h.apart, doomed_first h.doomed (by simp)⟩
    simp [traffic, first, await, hafter, htodo, Promise.write?]
    rfl
  · -- the pending open is canceled first
    have hwild : wild = true := by
      cases hw : wild with
      | true => rfl
      | false =>
        have happart : Apart { s with promises := s.promises.eraseIdx index } := h.apart hw
        rw [opening_of_isOpen happart hopen] at hopening
        cases hopening
    rcases hcancels with heq | ⟨hset, thrown, heq⟩
    · rw [heq]
      refine write_settles (some (asError reason)) hbefore hdue ?_
        ⟨.dropping hwild hclear, h.apart, doomed_first h.doomed (by simp)⟩
      simp [traffic, first, hafter, htodo]
      rfl
    · rw [heq]
      have hquiet := throw_quiet { s with
        promises := s.promises.eraseIdx index, closing := true
        _closeError := some (disconnectedError (asError reason)) } thrown
      refine ⟨⟨.clear (hquiet.todo.clear hclear), hquiet.frame.apart ∘ h.apart, hquiet.doomed h.doomed⟩, ?_⟩
      rw [hquiet.traffic hclear]
      have habandoned := Traffic.Step.abandoned (t := s.traffic) (hdrops hwild hopen hopening hset) hbefore
      rw [← hafter] at habandoned
      exact habandoned

theorem settled_goes (h : Sound wild s) (htodo : s.todo = []) {index : ℕ} {promise : Promise} {result : Result}
    (hpromise : s.promises[index]? = some promise)
    (hstep : ({ s with promises := s.promises.eraseIdx index } : SerialPortStream).settled promise result = some s')
    (hdrops : wild = true → s.isOpen → s.opening → s._opening = false → drops) :
    Goes wild drops s (s.gained (.settle index result)) [] s' := by
  have hclear : Clear wild s.todo := htodo ▸ .nil
  have hready (hwrite : promise.write? = none) : Ready wild s { s with promises := s.promises.eraseIdx index } :=
    ⟨hclear, h.apart, h.doomed, by simp [traffic, filterMap_eraseIdx_none hpromise hwrite]⟩
  have hcatch (hwrite : promise.write? = none) :
      Ready wild s (({ s with promises := s.promises.eraseIdx index } : SerialPortStream).first [.catchOpen]) :=
    ⟨.inner rfl hclear, h.apart, fun error hmem => h.doomed error (by simpa [first] using hmem),
      by simp [traffic, first, filterMap_eraseIdx_none hpromise hwrite]; rfl⟩
  have hdue : s.traffic.due = [] := by rw [traffic, htodo]; rfl
  have hreceived {port length : ℕ} (hreading : promise = .reading port length) (data : Buffer)
      (harrived : s.arrived (.settle index result) = if s.port = some port then some data else none) :
      Goes wild drops s (s.gained (.settle index result)) [] (({ s with promises := s.promises.eraseIdx index } :
        SerialPortStream).received port length data) := by
    have hgained : s.gained (.settle index result) = if s.port = some port ∧ s.isOpen then some data else none := by
      rw [gained, harrived]
      by_cases hport : s.port = some port <;> by_cases hopen : s.isOpen <;> simp [hport, hopen]
    rw [hgained]
    exact received_goes (hready (by rw [hreading]; rfl)) port length data
  have hfailed {port length : ℕ} (hreading : promise = .reading port length) (reason : Thrown)
      (harrived : s.arrived (.settle index result) = none) :
      Goes wild drops s (s.gained (.settle index result)) [] (({ s with promises := s.promises.eraseIdx index } :
        SerialPortStream)._readError port reason length) := by
    rw [gained_of_none harrived]
    exact (hready (by rw [hreading]; rfl)).reads (_readError_reads _ port reason length)
  cases settled_settles hstep with
  | opened =>
    rw [gained_of_none (by simp [arrived, hpromise])]
    exact opened_goes (hready rfl) htodo _ _ _
  | rejected =>
    rw [gained_of_none (by simp [arrived, hpromise])]
    exact rejected_goes (hready rfl) _ _
  | closed =>
    rw [gained_of_none (by simp [arrived, hpromise])]
    exact (hready rfl).quiet (closed_quiet _ _ _) (by simp)
  | closeFailed =>
    rw [gained_of_none (by simp [arrived, hpromise])]
    exact (hready rfl).quiet (_closeFailed_quiet _ _ _) (by simp)
  | canceled | cancelFailed =>
    rw [gained_of_none (by simp [arrived, hpromise])]
    exact (hcatch rfl).quiet (canceled_quiet _ _ _ _) (by simp)
  | written =>
    obtain ⟨before, after, hbefore, hafter⟩ := filterMap_eraseIdx_some (f := Promise.write?) hpromise rfl
    rw [gained_of_none (by simp [arrived, hpromise])]
    refine write_settles none hbefore hdue ?_
      ⟨.call rfl rfl hclear, h.apart, doomed_first h.doomed (by simp)⟩
    simp [traffic, first, hafter, htodo]
    rfl
  | writeFailed =>
    rw [gained_of_none (by simp [arrived, hpromise])]
    exact writeFailed_goes h htodo hpromise _ hdrops
  | data => exact hreceived rfl _ (by simp [arrived, hpromise])
  | bytesRead hchunk hlength hdata => exact hreceived rfl _ (by simp [arrived, hpromise, hdata, Except.toOption])
  | invalid hchunk hlength herror => exact hfailed rfl _ (by simp [arrived, hpromise, herror, Except.toOption])
  | readFailed => exact hfailed rfl _ (by simp [arrived, hpromise])
  | operated =>
    rw [gained_of_none (by simp [arrived, hpromise])]
    exact (hready rfl).quiet (operated_quiet _ _ _ _ _) (by simp)
  | operationFailed | reported =>
    rw [gained_of_none (by simp [arrived, hpromise])]
    exact (hready rfl).quiet (_report_quiet _ _ _) (by simp)

/-- An exception drops the end of a write: a listener that stands before its callback throws, or there is no `_opening` whose
`cancel` the `close` of a failed write could call. -/
def Drops (s : SerialPortStream) : Input → Prop
  | .throws _ => ∃ write error rest, s.todo = .outside .listener :: .call (.written write error) .listener :: rest
  | .settle _ _ => s.isOpen ∧ s.opening ∧ s._opening = false
  | _ => False

end SerialPortStream

/-- **Every step of the stream is a step of its traffic**, where ports keep apart, or are wild. -/
theorem step_goes {s s' : SerialPortStream} {input : Input} {out : List Output} (h : Sound wild s)
    (hrevives : wild = false → s.Revives input → s.opening = false) (hstep : s.step input = some (s', out)) :
    Goes wild (wild = true ∧ s.Drops input) s (s.gained input) out s' := by
  cases SerialPortStream.step_runs hstep with
  | enter hwaits hentry => exact SerialPortStream.enter_goes h hwaits hentry
  | returns htodo =>
    rw [gained_of_none rfl]
    exact SerialPortStream.returned_goes h htodo
  | throws reason htodo =>
    rw [gained_of_none rfl]
    refine SerialPortStream.thrown_goes h htodo reason fun hwild hkind ⟨write, error, later, hrest⟩ => ⟨hwild, ?_⟩
    exact ⟨write, error, later, by rw [htodo, hkind, hrest]⟩
  | proceed htodo htask =>
    rw [gained_of_none rfl]
    exact SerialPortStream.perform_goes h htodo htask
  | settle htodo hpromise hsettled =>
    exact SerialPortStream.settled_goes h htodo hpromise hsettled fun hwild hopen hopening hset =>
      ⟨hwild, hopen, hopening, hset⟩
  | @tick message cb rest htodo hticks =>
    rw [gained_of_none rfl]
    have hready : Ready wild s { s with ticks := rest } := ⟨htodo ▸ .nil, h.apart, h.doomed, rfl⟩
    exact hready.quiet (SerialPortStream._report_quiet { s with ticks := rest } _ _) (by simp)
  | @isOpen port value hwaits =>
    rw [gained_of_none rfl]
    have hclear := SerialPortStream.clear_of_waits h.orderly hwaits
    have happart (hw : wild = false) := SerialPortStream.setOpen_apart port (h.apart hw) fun hvalue hport hclosed =>
      hrevives hw ⟨hvalue, hport, hclosed⟩
    exact (SerialPortStream.ready_self h hclear).still (by simp) (.clear hclear) happart h.doomed rfl

theorem step_apart {s s' : SerialPortStream} {input : Input} {out : List Output} (h : Sound false s)
    (hrevives : s.Revives input → s.opening = false) (hstep : s.step input = some (s', out)) :
    Goes false False s (s.gained input) out s' := by
  obtain ⟨hsound, hgoes⟩ := step_goes h (fun _ => hrevives) hstep
  exact ⟨hsound, hgoes.mono (by simp)⟩

theorem step_own {s s' : SerialPortStream} {input : Input} {out : List Output} (h : Sound false s)
    (hown : ∀ port value, input ≠ .isOpen port value) (hstep : s.step input = some (s', out)) :
    Goes false False s (s.gained input) out s' := by
  refine step_apart h (fun hrevives => ?_) hstep
  cases input with
  | isOpen port value => exact absurd rfl (hown port value)
  | _ => cases hrevives

/-- A stream that was just constructed. -/
def SerialPortStream.new (features : ℕ → Features) (endOnClose : Bool) (highWaterMark : ℕ) (baudRate : Option ℕ) :
    SerialPortStream :=
  { features := features, endOnClose := endOnClose, highWaterMark := highWaterMark, baudRate := baudRate }

theorem new_sound (wild : Bool) (features : ℕ → Features) (endOnClose : Bool) (highWaterMark : ℕ) (baudRate : Option ℕ) :
    Sound wild (SerialPortStream.new features endOnClose highWaterMark baudRate) :=
  ⟨.clear .nil, fun _ => by simp [Apart, SerialPortStream.new], by simp [Doomed, SerialPortStream.new]⟩

end NodeSerialport.Stream
