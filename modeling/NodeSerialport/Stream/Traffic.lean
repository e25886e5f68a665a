import NodeSerialport.Stream.Steps
/-!
# The traffic of a stream

What a stream has in hand of the data that passes through it, apart from its life cycle: the write that waits, the
writes whose promises have not settled, and the calls that move data and are left to be made.

* `Traffic`, `Traffic.Step` — the abstract machine: what can happen to a write, to a piece of data, to a read;
* `SerialPortStream.traffic` — what a stream has in hand;
* `Quiet.traffic` — a function that moves no data leaves it as it is.
-/

namespace NodeSerialport.Stream

open Parsers (Buffer)
open Binding (SerialError)

/-! ### Outputs -/

/-- A call that submits a write: the write, and its bytes. -/
def Output.submitted? : Output → Option (ℕ × Buffer)
  | .write _ id data => some (id, data)
  | .writev _ id chunks => some (id, chunks.flatten)
  | _ => none

/-- The end of a write. -/
def Output.written? : Output → Option (ℕ × Option SerialError)
  | .written id error => some (id, error)
  | _ => none

def Output.handed? : Output → Option (ℕ × Buffer)
  | .handed id data => some (id, data)
  | _ => none

/-- The bytes that are pushed. -/
def Output.pushed? : Output → Option Buffer
  | .push data => some (data.getD [])
  | _ => none

/-- Every output but those that move data and a write handed over. -/
def Output.silent (output : Output) : Bool := !output.moves && output.handed?.isNone

theorem silent_of_moves {output : Output} (hmoves : output.moves = false) (hnoted : output.noted = false) :
    output.silent := by
  cases output with
  | handed => cases hnoted
  | startReading | readChunk | read | write | writev | push | written => cases hmoves
  | _ => rfl

namespace Output

variable {output : Output}

theorem of_silent (h : output.silent) :
    output.handed? = none ∧ output.submitted? = none ∧ output.written? = none ∧ output.pushed? = none := by
  cases output with
  | handed | write | writev | written | push => cases h
  | _ => exact ⟨rfl, rfl, rfl, rfl⟩

theorem of_submitted {request : ℕ × Buffer} (h : output.submitted? = some request) :
    output.handed? = none ∧ output.written? = none ∧ output.pushed? = none ∧ output.ends = false := by
  cases output with
  | write | writev => exact ⟨rfl, rfl, rfl, rfl⟩
  | _ => cases h

theorem of_asks (h : output.asks) : output.submitted? = none ∧ output.written? = none ∧ output.pushed? = none := by
  cases output with
  | startReading | readChunk | read => exact ⟨rfl, rfl, rfl⟩
  | _ => cases h

theorem of_pushed {data : Buffer} (h : output.pushed? = some data) :
    output.submitted? = none ∧ output.written? = none := by
  cases output with
  | push => exact ⟨rfl, rfl⟩
  | _ => cases h

theorem of_written {ending : ℕ × Option SerialError} (h : output.written? = some ending) :
    ∃ write error, output = .written write error := by
  cases output with
  | written write error => exact ⟨write, error, rfl⟩
  | _ => cases h

theorem of_moves (h : output.moves) (hwritten : output.written? = none) :
    output.handed? = none ∧ output.ends = false := by
  cases output with
  | startReading | readChunk | read | write | writev | push => exact ⟨rfl, rfl⟩
  | written => cases hwritten
  | _ => cases h

end Output

/-! ### The abstract machine -/

/-- What a stream has in hand. -/
structure Traffic where
  waiting : Option (ℕ × Buffer)
  writing : Option ℕ
  writes : ℕ
  /-- The writes whose promises have not settled. -/
  promised : List ℕ
  /-- The calls that move data and are left to be made. -/
  due : List Output

namespace Traffic

/-- One step, with the data that came in for the open port, and the outputs.  Whether an exception may drop the end of a write
is a parameter. -/
inductive Step (drops : Prop) (t : Traffic) : Option Buffer → List Output → Traffic → Prop where
  | still {out : List Output} (hout : ∀ output ∈ out, output.silent) : Step drops t none out t
  /-- A port is asked for data. -/
  | asks {output : Output} (houtput : output.asks) : Step drops t none [] { t with due := output :: t.due }
  /-- Data came in; it is pushed before anything else comes in. -/
  | data {data : Buffer} {output : Output} (houtput : output.pushed? = some data)
      (hdue : ∀ output ∈ t.due, output.pushed? = none) : Step drops t (some data) [] { t with due := output :: t.due }
  /-- The next call is made. -/
  | call {output : Output} {due : List Output} (hmoves : output.moves) (hdue : t.due = output :: due) :
    Step drops t none [output] { t with due := due, writing := if output.ends then none else t.writing }
  /-- Node hands over a write, which waits. -/
  | wait (data : Buffer) (hwriting : t.writing = none) : Step drops t none [.handed t.writes data]
    { t with waiting := some (t.writes, data), writing := some t.writes, writes := t.writes + 1 }
  /-- Node hands over a write, which is submitted. -/
  | submit (data : Buffer) {output : Output} (hwriting : t.writing = none)
      (houtput : output.submitted? = some (t.writes, data)) : Step drops t none [.handed t.writes data]
    { t with
      writing := some t.writes
      writes := t.writes + 1
      promised := t.promised ++ [t.writes]
      due := output :: t.due }
  /-- The write that waits is submitted. -/
  | resume {write : ℕ} {data : Buffer} {output : Output} (hwaiting : t.waiting = some (write, data))
      (houtput : output.submitted? = some (write, data)) :
    Step drops t none [] { t with waiting := none, promised := t.promised ++ [write], due := output :: t.due }
  /-- The write that waits is failed. -/
  | fail {write : ℕ} {data : Buffer} (error : SerialError) (hwaiting : t.waiting = some (write, data)) :
    Step drops t none [] { t with waiting := none, due := .written write (some error) :: t.due }
  /-- The promise of a write settles. -/
  | settle {before after : List ℕ} {write : ℕ} (error : Option SerialError)
      (hpromised : t.promised = before ++ write :: after) (hdue : t.due = []) :
    Step drops t none [] { t with promised := before ++ after, due := [.written write error] }
  /-- An exception drops the end of a write. -/
  | dropped {write : ℕ} {error : Option SerialError} {due : List Output} (hdrops : drops)
      (hdue : t.due = .written write error :: due) : Step drops t none [] { t with due := due }
  | abandoned {before after : List ℕ} {write : ℕ} (hdrops : drops) (hpromised : t.promised = before ++ write :: after) :
    Step drops t none [] { t with promised := before ++ after }

theorem Step.mono {drops drops' : Prop} {t t' : Traffic} {data : Option Buffer} {out : List Output}
    (h : t.Step drops data out t') (himp : drops → drops') : t.Step drops' data out t' := by
  cases h with
  | still hout => exact .still hout
  | asks houtput => exact .asks houtput
  | data houtput hdue => exact .data houtput hdue
  | call hmoves hdue => exact .call hmoves hdue
  | wait data hwriting => exact .wait data hwriting
  | submit data hwriting houtput => exact .submit data hwriting houtput
  | resume hwaiting houtput => exact .resume hwaiting houtput
  | fail error hwaiting => exact .fail error hwaiting
  | settle error hpromised hdue => exact .settle error hpromised hdue
  | dropped hdrops hdue => exact .dropped (himp hdrops) hdue
  | abandoned hdrops hpromised => exact .abandoned (himp hdrops) hpromised

end Traffic

/-! ### What a stream has in hand -/

def Promise.write? : Promise → Option ℕ
  | .writing _ write => some write
  | _ => none

/-- The calls that move data and are left to be made. -/
def moving (todo : List Task) : List Output := (due todo).filter Output.moves

def SerialPortStream.traffic (s : SerialPortStream) : Traffic :=
  { waiting := s._waitingWrite
    writing := s.writing
    writes := s.writes
    promised := s.promises.filterMap Promise.write?
    due := moving s.todo }

@[simp] theorem moving_nil : moving [] = [] := rfl

@[simp] theorem moving_append (a b : List Task) : moving (a ++ b) = moving a ++ moving b := by
  simp [moving]

theorem moving_cons_of_inner {task : Task} (h : task.inner) (todo : List Task) : moving (task :: todo) = moving todo := by
  cases task with
  | call output kind =>
    have hmoves : output.moves = false := by
      cases hm : output.moves <;> simp_all [Task.inner, Task.plain]
    simp [moving, hmoves]
  | _ => rfl

theorem moving_call {output : Output} (h : output.moves) (kind : Kind) (todo : List Task) :
    moving (.call output kind :: todo) = output :: moving todo := by
  simp [moving, h]

theorem moving_of_plain {tasks : List Task} (h : ∀ task ∈ tasks, task.plain) : moving tasks = [] := by
  rw [moving, List.filter_eq_nil_iff]
  intro output hmem
  simpa using moves_of_plain h output hmem

theorem moving_cancels {task : Task} (h : task.cancels) : moving [task, .catchOpen] = [] := by
  cases task <;> simp_all [Task.cancels, moving, due, Task.output?]

theorem Clear.moving_dropWhile {wild : Bool} {todo : List Task} (h : Clear wild todo) :
    moving (todo.dropWhile fun task => !task.catches) = moving todo := by
  induction todo with
  | nil => rfl
  | cons task rest ih =>
    by_cases hcatches : task.catches
    · simp [List.dropWhile, hcatches]
    · cases h with
      | inner htask hrest =>
        rw [moving_cons_of_inner htask, ← ih hrest]
        simp [List.dropWhile, hcatches]
      | @destroying error _ _ hrest =>
        have hcons : moving (.destroy error :: rest) = moving rest := rfl
        rw [hcons, ← ih hrest]
        simp [List.dropWhile, Task.catches]
      | closing _ => simp [Task.catches] at hcatches
      | dropping _ _ => simp [Task.catches] at hcatches
      | canceling htask =>
        have hcatch : Task.catchOpen.catches = true := rfl
        rw [moving_cancels htask, List.dropWhile_cons_of_pos (by simpa using hcatches),
          List.dropWhile_cons_of_neg (by simp [hcatch])]
        rfl

/-- Below a call that runs, only ends of writes are left of what moves data. -/
theorem Clear.moving_written {wild : Bool} {todo : List Task} (h : Clear wild todo) :
    ∀ output ∈ moving todo, ∃ write error, output = .written write error := by
  induction h with
  | nil => simp
  | inner htask _ ih =>
    rw [moving_cons_of_inner htask]
    exact ih
  | destroying _ _ ih => exact ih
  | @closing write error rest _ ih =>
    have hcons : moving (.outside .binding :: .call (.written write error) .listener :: rest) =
        .written write error :: moving rest := rfl
    rw [hcons]
    intro output hmem
    obtain rfl | hmem := List.mem_cons.1 hmem
    · exact ⟨write, error, rfl⟩
    · exact ih output hmem
  | @dropping write error rest _ _ ih =>
    intro output hmem
    rcases List.mem_cons.1 (show output ∈ .written write error :: moving rest from hmem) with rfl | hmem
    · exact ⟨write, error, rfl⟩
    · exact ih output hmem
  | canceling htask =>
    rw [moving_cancels htask]
    simp

theorem Grown.moving {wild : Bool} {todo todo' : List Task} (h : Grown todo todo') (hclear : Clear wild todo) :
    moving todo' = moving todo := by
  cases h with
  | tasks htasks => rw [moving_append, moving_of_plain htasks, List.nil_append]
  | thrown => exact hclear.moving_dropWhile
  | caught hcaught =>
    rw [← hclear.moving_dropWhile, hcaught]
    rfl

theorem write?_of_quiet {promises : List Promise} (h : ∀ promise ∈ promises, promise.quiet) :
    promises.filterMap Promise.write? = [] := by
  rw [List.filterMap_eq_nil_iff]
  intro promise hmem
  have hquiet := h promise hmem
  cases promise <;> simp_all [Promise.quiet, Promise.write?]

/-- A quiet function leaves what is in hand as it is. -/
theorem Quiet.traffic {wild : Bool} {s s' : SerialPortStream} (h : Quiet s s') (hclear : Clear wild s.todo) :
    s'.traffic = s.traffic := by
  obtain ⟨added, hpromises, hadded⟩ := h.promises
  simp [SerialPortStream.traffic, h.frame.waitingWrite, h.frame.writing, h.frame.writes, h.todo.moving hclear,
    hpromises, write?_of_quiet hadded]

end NodeSerialport.Stream
