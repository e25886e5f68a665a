import NodeSerialport.Stream.Dialing
import NodeSerialport.Stream.Refinement
import Mathlib.Data.List.Perm.Subperm
import Mathlib.Data.List.Nodup
/-!
# Writes across the life of a stream

Node hands over one write at a time.  Whatever happens to the port, the stream holds its callback in exactly one place:
the slot `_waitingWrite`, the promise of the port, or the call of the callback.

* `handings`, `submissions`, `endings` — the writes handed over, submitted to a port, and ended by their callbacks;
* `Traffic.held`, `Traffic.requests` — the callbacks in hand, and the writes that may still be submitted;
* `Accounted` — the invariant; `Accounted.step` — every step of the traffic keeps it;
* `CancelThrows` — a close that throws while its port is being opened; `cancelThrows_drops`, what is lost by it;
* `writes_conserved` — without one, no write is lost or repeated.
-/

namespace NodeSerialport.Stream

open Parsers (Buffer)
open Binding (SerialError)
open Lib (Machine)

/-! ### The writes of a run -/

/-- The writes Node hands over. -/
def handings (outputs : List Output) : List (ℕ × Buffer) := outputs.filterMap Output.handed?

/-- The writes that are submitted to a port. -/
def submissions (outputs : List Output) : List (ℕ × Buffer) := outputs.filterMap Output.submitted?

/-- The writes whose callbacks are called, and with what. -/
def endings (outputs : List Output) : List (ℕ × Option SerialError) := outputs.filterMap Output.written?

@[simp] theorem handings_append (a b : List Output) : handings (a ++ b) = handings a ++ handings b :=
  List.filterMap_append

@[simp] theorem submissions_append (a b : List Output) : submissions (a ++ b) = submissions a ++ submissions b :=
  List.filterMap_append

@[simp] theorem endings_append (a b : List Output) : endings (a ++ b) = endings a ++ endings b :=
  List.filterMap_append

@[simp] theorem handings_nil : handings [] = [] := rfl

@[simp] theorem submissions_nil : submissions [] = [] := rfl

@[simp] theorem endings_nil : endings [] = [] := rfl

@[simp] theorem endings_written (write : ℕ) (error : Option SerialError) (rest : List Output) :
    endings (.written write error :: rest) = (write, error) :: endings rest := rfl

@[simp] theorem submissions_written (write : ℕ) (error : Option SerialError) (rest : List Output) :
    submissions (.written write error :: rest) = submissions rest := rfl

@[simp] theorem handings_written (write : ℕ) (error : Option SerialError) (rest : List Output) :
    handings (.written write error :: rest) = handings rest := rfl

@[simp] theorem handings_handed (write : ℕ) (data : Buffer) (rest : List Output) :
    handings (.handed write data :: rest) = (write, data) :: handings rest := rfl

@[simp] theorem submissions_handed (write : ℕ) (data : Buffer) (rest : List Output) :
    submissions (.handed write data :: rest) = submissions rest := rfl

@[simp] theorem endings_handed (write : ℕ) (data : Buffer) (rest : List Output) :
    endings (.handed write data :: rest) = endings rest := rfl

theorem handings_of_silent {outputs : List Output} (h : ∀ output ∈ outputs, output.silent) : handings outputs = [] := by
  refine List.filterMap_eq_nil_iff.2 fun output hmem => ?_
  exact (Output.of_silent (h output hmem)).1

theorem submissions_of_silent {outputs : List Output} (h : ∀ output ∈ outputs, output.silent) :
    submissions outputs = [] := by
  refine List.filterMap_eq_nil_iff.2 fun output hmem => ?_
  exact (Output.of_silent (h output hmem)).2.1

theorem endings_of_silent {outputs : List Output} (h : ∀ output ∈ outputs, output.silent) : endings outputs = [] := by
  refine List.filterMap_eq_nil_iff.2 fun output hmem => ?_
  exact (Output.of_silent (h output hmem)).2.2.1

theorem other_call (output : Output) (hsubmitted : output.submitted? = none) (hwritten : output.written? = none)
    (due : List Output) : submissions (output :: due) = submissions due ∧ endings (output :: due) = endings due := by
  simp [submissions, endings, hsubmitted, hwritten]

/-! ### The invariant -/

namespace Traffic

/-- The writes whose callbacks are in hand. -/
def held (t : Traffic) : List ℕ := t.waiting.toList.map Prod.fst ++ t.promised ++ (endings t.due).map Prod.fst

/-- The writes that may still be submitted. -/
def requests (t : Traffic) : List (ℕ × Buffer) := submissions t.due ++ t.waiting.toList

end Traffic

/-- The one is not the end of a write that the other submits. -/
def InOrder (a b : Output) : Prop := ∀ write error data, a.written? = some (write, error) → b.submitted? ≠ some (write, data)

/-- The writes of a run, and what the stream has in hand at its end. -/
structure Accounted (outputs : List Output) (t : Traffic) : Prop where
  numbered : (handings outputs).map Prod.fst = List.range t.writes
  ended : (endings outputs).map Prod.fst ++ t.writing.toList = List.range t.writes
  held : t.held.Perm t.writing.toList
  requested : (submissions outputs ++ t.requests).Sublist (handings outputs)
  submitting : ∀ write ∈ (submissions t.due).map Prod.fst, write ∈ t.promised
  promised : ∀ write ∈ t.promised, write ∈ (submissions (outputs ++ t.due)).map Prod.fst
  succeeded : ∀ write, (write, none) ∈ endings (outputs ++ t.due) → write ∈ (submissions outputs).map Prod.fst
  /-- No write is submitted once it has ended. -/
  ordered : outputs.Pairwise InOrder

namespace Accounted

variable {outputs : List Output} {t : Traffic}

theorem idle (h : Accounted outputs t) (hwriting : t.writing = none) :
    t.waiting = none ∧ t.promised = [] ∧ endings t.due = [] ∧ submissions t.due = [] := by
  have hheld := h.held
  rw [hwriting] at hheld
  have hnil : t.held = [] := hheld.eq_nil
  simp only [Traffic.held, List.append_eq_nil_iff, List.map_eq_nil_iff, Option.toList_eq_nil_iff] at hnil
  obtain ⟨⟨hwaiting, hpromised⟩, hendings⟩ := hnil
  refine ⟨hwaiting, hpromised, hendings, ?_⟩
  rw [List.eq_nil_iff_forall_not_mem]
  intro request hmem
  have hpending := h.submitting request.1 (List.mem_map_of_mem hmem)
  simp [hpromised] at hpending

theorem start (t : Traffic) (hwaiting : t.waiting = none) (hwriting : t.writing = none) (hwrites : t.writes = 0)
    (hpromised : t.promised = []) (hdue : t.due = []) : Accounted [] t := by
  constructor <;>
    simp [handings, endings, submissions, Traffic.held, Traffic.requests, hwaiting, hwriting, hwrites, hpromised, hdue]

theorem ordered_append (h : Accounted outputs t) {out : List Output} (hout : submissions out = []) :
    (outputs ++ out).Pairwise InOrder := by
  have hnone : ∀ output ∈ out, output.submitted? = none := List.filterMap_eq_nil_iff.1 hout
  refine List.pairwise_append.2 ⟨h.ordered, ?_, ?_⟩
  · refine List.pairwise_of_forall_mem_list fun a _ b hb write error data _ => ?_
    simp [hnone b hb]
  · intro a _ b hb write error data _
    simp [hnone b hb]

theorem still (h : Accounted outputs t) (out due : List Output) (hhandings : handings out = [])
    (hsubmissions : submissions out = []) (hendings : endings out = []) (hdue : submissions due = submissions t.due)
    (hdue' : endings due = endings t.due) : Accounted (outputs ++ out) { t with due := due } := by
  have hrequests : ({ t with due := due } : Traffic).requests = t.requests := by simp [Traffic.requests, hdue]
  have hheld : ({ t with due := due } : Traffic).held = t.held := by simp [Traffic.held, hdue']
  refine ⟨?_, ?_, hheld ▸ h.held, ?_, ?_, ?_, ?_, h.ordered_append hsubmissions⟩
  · simpa [hhandings] using h.numbered
  · simpa [hendings] using h.ended
  · rw [hrequests]
    simpa [hhandings, hsubmissions] using h.requested
  · simpa [hdue] using h.submitting
  · simpa [hdue, hsubmissions] using h.promised
  · simpa [hdue', hendings, hsubmissions] using h.succeeded

theorem held_singleton (h : Accounted outputs t) {write : ℕ} (hmem : write ∈ t.held) :
    t.writing = some write ∧ t.held = [write] := by
  have hmem' := h.held.mem_iff.1 hmem
  have hwriting : t.writing = some write := by simpa [eq_comm] using hmem'
  refine ⟨hwriting, ?_⟩
  have hheld := h.held
  rw [hwriting] at hheld
  exact List.perm_singleton.1 hheld

theorem waiting_alone (h : Accounted outputs t) {write : ℕ} {data : Buffer} (hwaiting : t.waiting = some (write, data)) :
    t.writing = some write ∧ t.promised = [] ∧ endings t.due = [] ∧ submissions t.due = [] := by
  obtain ⟨hwriting, hheld⟩ := h.held_singleton (show write ∈ t.held by simp [Traffic.held, hwaiting])
  have hrest : t.promised = [] ∧ endings t.due = [] := by simpa [Traffic.held, hwaiting] using hheld
  refine ⟨hwriting, hrest.1, hrest.2, ?_⟩
  rw [List.eq_nil_iff_forall_not_mem]
  intro request hmem
  have hpending := h.submitting request.1 (List.mem_map_of_mem hmem)
  simp [hrest.1] at hpending

theorem submitted {output : Output} {due : List Output} {write : ℕ} {data : Buffer} (h : Accounted outputs t)
    (hdue : t.due = output :: due) (houtput : output.submitted? = some (write, data)) :
    Accounted (outputs ++ [output]) { t with due := due } := by
  obtain ⟨hhanded, hwritten, -, -⟩ := Output.of_submitted houtput
  have hsplit : ∀ rest, submissions (output :: rest) = (write, data) :: submissions rest := fun rest => by
    simp [submissions, houtput]
  have hendings : ∀ rest, endings (output :: rest) = endings rest := fun rest => by simp [endings, hwritten]
  have hhandings : handings [output] = [] := by simp [handings, hhanded]
  have hlast : submissions [output] = [(write, data)] := hsplit []
  have hheld : ({ t with due := due } : Traffic).held = t.held := by simp [Traffic.held, hdue, hendings]
  have hended := h.ended
  have hwriting := (h.held_singleton (show write ∈ t.held by
    have hpending := h.submitting write (by simp [hdue, hsplit])
    simp [Traffic.held, hpending])).1
  rw [hwriting] at hended
  have hnot : write ∉ (endings outputs).map Prod.fst := by
    intro hmem
    have hnodup := List.nodup_range (n := t.writes)
    rw [← hended] at hnodup
    exact List.disjoint_of_nodup_append hnodup hmem (by simp)
  refine ⟨?_, ?_, hheld ▸ h.held, ?_, ?_, ?_, ?_, ?_⟩
  · simpa [hhandings] using h.numbered
  · simpa [hendings] using h.ended
  · simpa [Traffic.requests, hdue, hsplit, hlast, hhandings] using h.requested
  · intro other hmem
    exact h.submitting other (by simp [hdue, hsplit] at hmem ⊢; exact .inr hmem)
  · simpa [hdue, hsplit, hlast, or_assoc] using h.promised
  · intro other hmem
    have hold := h.succeeded other (by simpa [hdue, hendings] using hmem)
    simp only [submissions_append, List.map_append, List.mem_append]
    exact .inl hold
  · refine List.pairwise_append.2 ⟨h.ordered, List.pairwise_singleton _ _, ?_⟩
    intro a ha b hb other error bytes hwritten' hsubmitted
    obtain rfl := List.mem_singleton.1 hb
    rw [houtput] at hsubmitted
    obtain ⟨rfl, -⟩ := Prod.mk.inj (Option.some.inj hsubmitted)
    exact hnot (List.mem_map.2 ⟨(write, error), List.mem_filterMap.2 ⟨a, ha, hwritten'⟩, rfl⟩)

theorem finished {write : ℕ} {error : Option SerialError} {due : List Output} (h : Accounted outputs t)
    (hdue : t.due = .written write error :: due) :
    Accounted (outputs ++ [.written write error]) { t with due := due, writing := none } := by
  have hdues : endings t.due = (write, error) :: endings due := by rw [hdue]; rfl
  have hsubmissions : submissions t.due = submissions due := by rw [hdue]; rfl
  obtain ⟨hwriting, hheld⟩ := h.held_singleton (show write ∈ t.held by simp [Traffic.held, hdues])
  have hrest : (t.waiting = none ∧ t.promised = []) ∧ endings due = [] := by
    simp only [Traffic.held, hdues, List.map_cons] at hheld
    have hlength := congrArg List.length hheld
    simp only [List.length_append, List.length_map, List.length_cons, List.length_nil] at hlength
    refine ⟨⟨?_, List.length_eq_zero_iff.1 (by omega)⟩, List.length_eq_zero_iff.1 (by omega)⟩
    exact Option.toList_eq_nil_iff.1 (List.length_eq_zero_iff.1 (by omega))
  obtain ⟨⟨hwaiting, hpromised⟩, hendings⟩ := hrest
  refine ⟨?_, ?_, ?_, ?_, ?_, ?_, ?_, h.ordered_append rfl⟩
  · simpa using h.numbered
  · have hended := h.ended
    rw [hwriting] at hended
    simpa using hended
  · simp [Traffic.held, hwaiting, hpromised, hendings]
  · simpa [Traffic.requests, hsubmissions] using h.requested
  · simpa [hsubmissions] using h.submitting
  · simp [hpromised]
  · intro other hmem
    have hold := h.succeeded other (by simpa [hdues] using hmem)
    simpa using hold

theorem waits (h : Accounted outputs t) (hwriting : t.writing = none) (data : Buffer) :
    Accounted (outputs ++ [.handed t.writes data])
      { t with waiting := some (t.writes, data), writing := some t.writes, writes := t.writes + 1 } := by
  obtain ⟨hwaiting, hpromised, hendings, hsubmissions⟩ := h.idle hwriting
  have hended := h.ended
  have hrequested := h.requested
  rw [hwriting] at hended
  refine ⟨?_, ?_, ?_, ?_, ?_, ?_, ?_, h.ordered_append rfl⟩
  · simp [h.numbered, List.range_succ]
  · simpa [List.range_succ] using hended
  · simp [Traffic.held, hpromised, hendings]
  · simp only [Traffic.requests, hwaiting, hsubmissions, Option.toList_none, List.append_nil] at hrequested
    simpa [Traffic.requests, hsubmissions] using hrequested.append (.refl [(t.writes, data)])
  · simp [hsubmissions]
  · simp [hpromised]
  · simpa [hendings] using h.succeeded

theorem submits {output : Output} {data : Buffer} (h : Accounted outputs t) (hwriting : t.writing = none)
    (houtput : output.submitted? = some (t.writes, data)) :
    Accounted (outputs ++ [.handed t.writes data])
      { t with
        writing := some t.writes
        writes := t.writes + 1
        promised := t.promised ++ [t.writes]
        due := output :: t.due } := by
  obtain ⟨hwaiting, hpromised, hendings, hsubmissions⟩ := h.idle hwriting
  have hended := h.ended
  have hrequested := h.requested
  rw [hwriting] at hended
  have hsplit : submissions (output :: t.due) = [(t.writes, data)] := by
    simp [submissions, houtput]
    simpa [submissions] using hsubmissions
  have hwritten : endings (output :: t.due) = [] := by
    rw [← hendings]
    exact List.filterMap_cons_none (Output.of_submitted houtput).2.1
  refine ⟨?_, ?_, ?_, ?_, ?_, ?_, ?_, h.ordered_append rfl⟩
  · simp [h.numbered, List.range_succ]
  · simpa [List.range_succ] using hended
  · simp [Traffic.held, hwaiting, hpromised, hwritten]
  · simp only [Traffic.requests, hwaiting, hsubmissions, Option.toList_none, List.append_nil] at hrequested
    simpa [Traffic.requests, hsplit, hwaiting] using hrequested.append (.refl [(t.writes, data)])
  · simp [hsplit]
  · simp [hpromised, hsplit]
  · simpa [hwritten, hendings] using h.succeeded

theorem resumes {output : Output} {write : ℕ} {data : Buffer} (h : Accounted outputs t)
    (hwaiting : t.waiting = some (write, data)) (houtput : output.submitted? = some (write, data)) :
    Accounted outputs { t with waiting := none, promised := t.promised ++ [write], due := output :: t.due } := by
  obtain ⟨hwriting, hpromised, hendings, hsubmissions⟩ := h.waiting_alone hwaiting
  have hrequested := h.requested
  have hsplit : submissions (output :: t.due) = [(write, data)] := by
    simp [submissions, houtput]
    simpa [submissions] using hsubmissions
  have hwritten : endings (output :: t.due) = [] := by
    rw [← hendings]
    exact List.filterMap_cons_none (Output.of_submitted houtput).2.1
  refine ⟨h.numbered, h.ended, ?_, ?_, ?_, ?_, ?_, h.ordered⟩
  · simp [Traffic.held, hwriting, hpromised, hwritten]
  · simpa [Traffic.requests, hsplit, hwaiting, hsubmissions] using hrequested
  · simp [hsplit]
  · simp [hpromised, hsplit]
  · simpa [hwritten, hendings] using h.succeeded

theorem fails {write : ℕ} {data : Buffer} (h : Accounted outputs t) (error : SerialError)
    (hwaiting : t.waiting = some (write, data)) :
    Accounted outputs { t with waiting := none, due := .written write (some error) :: t.due } := by
  obtain ⟨hwriting, hpromised, hendings, hsubmissions⟩ := h.waiting_alone hwaiting
  have hrequested := h.requested
  refine ⟨h.numbered, h.ended, ?_, ?_, ?_, ?_, ?_, h.ordered⟩
  · simp [Traffic.held, hwriting, hpromised, hendings]
  · simp only [Traffic.requests, hwaiting, hsubmissions, Option.toList_some, List.nil_append] at hrequested
    simpa [Traffic.requests, hsubmissions] using (List.sublist_append_left _ _).trans hrequested
  · simp [hsubmissions]
  · simp [hpromised]
  · simpa [hendings] using h.succeeded

theorem settles {before after : List ℕ} {write : ℕ} (h : Accounted outputs t) (error : Option SerialError)
    (hpromised : t.promised = before ++ write :: after) (hdue : t.due = []) :
    Accounted outputs { t with promised := before ++ after, due := [.written write error] } := by
  obtain ⟨hwriting, hheld⟩ := h.held_singleton (show write ∈ t.held by simp [Traffic.held, hpromised])
  have hrequested := h.requested
  have hrest : t.waiting = none ∧ before = [] ∧ after = [] := by
    simp only [Traffic.held, hpromised] at hheld
    have hlength := congrArg List.length hheld
    simp only [List.length_append, List.length_map, List.length_cons, List.length_nil] at hlength
    refine ⟨?_, List.length_eq_zero_iff.1 (by omega), List.length_eq_zero_iff.1 (by omega)⟩
    exact Option.toList_eq_nil_iff.1 (List.length_eq_zero_iff.1 (by omega))
  obtain ⟨hwaiting, rfl, rfl⟩ := hrest
  have hsubmitted := h.promised write (by simp [hpromised])
  rw [hdue, List.append_nil] at hsubmitted
  refine ⟨h.numbered, h.ended, ?_, ?_, ?_, ?_, ?_, h.ordered⟩
  · simp [Traffic.held, hwriting, hwaiting]
  · simpa [Traffic.requests, hdue, hwaiting] using hrequested
  · simp
  · simp
  · intro other hmem
    simp only [endings_append, endings_written, endings_nil, List.mem_append, List.mem_singleton, Prod.mk.injEq] at hmem
    obtain hmem | ⟨rfl, -⟩ := hmem
    · exact h.succeeded other (by simp [hmem])
    · exact hsubmitted

/-- Every step of the traffic keeps the account of the writes. -/
theorem step {t' : Traffic} {data : Option Buffer} {out : List Output} (h : Accounted outputs t)
    (hstep : t.Step False data out t') : Accounted (outputs ++ out) t' := by
  cases hstep with
  | still hout =>
    exact h.still out t.due (handings_of_silent hout) (submissions_of_silent hout) (endings_of_silent hout) rfl rfl
  | @asks output houtput =>
    obtain ⟨hsubmitted, hwritten, -⟩ := Output.of_asks houtput
    have hother := other_call output hsubmitted hwritten t.due
    exact h.still [] _ rfl rfl rfl hother.1 hother.2
  | @data _ output houtput =>
    obtain ⟨hsubmitted, hwritten⟩ := Output.of_pushed houtput
    have hother := other_call output hsubmitted hwritten t.due
    exact h.still [] _ rfl rfl rfl hother.1 hother.2
  | @call output due hmoves hdue =>
    cases hsubmitted : output.submitted? with
    | some request =>
      obtain ⟨-, -, -, hends⟩ := Output.of_submitted hsubmitted
      simpa [hends] using h.submitted hdue hsubmitted
    | none =>
      cases hwritten : output.written? with
      | some ending =>
        obtain ⟨write, error, rfl⟩ := Output.of_written hwritten
        exact h.finished hdue
      | none =>
        obtain ⟨hhanded, hends⟩ := Output.of_moves hmoves hwritten
        have hother := other_call output hsubmitted hwritten due
        have hout := other_call output hsubmitted hwritten []
        have hstill := h.still [output] due (by simp [handings, hhanded]) hout.1 hout.2
          (by rw [hdue, hother.1]) (by rw [hdue, hother.2])
        simpa [hends] using hstill
  | wait data hwriting => exact h.waits hwriting data
  | submit data hwriting houtput => exact h.submits hwriting houtput
  | resume hwaiting houtput => simpa using h.resumes hwaiting houtput
  | fail error hwaiting => simpa using h.fails error hwaiting
  | settle error hpromised hdue => simpa using h.settles error hpromised hdue
  | dropped hdrops _ => exact hdrops.elim
  | abandoned hdrops _ => exact hdrops.elim

end Accounted

/-! ### Runs -/

theorem waiting_kept {drops : Prop} {outputs : List Output} {t t' : Traffic} {data : Option Buffer} {out : List Output}
    (h : Accounted outputs t) (hstep : t.Step drops data out t') {slot : ℕ × Buffer} (hwaiting : t.waiting = some slot) :
    t'.waiting = some slot ∨ t'.waiting = none := by
  cases hstep with
  | wait _ hwriting =>
    have hidle := (h.idle hwriting).1
    simp [hwaiting] at hidle
  | resume _ _ => exact .inr rfl
  | fail _ _ => exact .inr rfl
  | _ => exact .inl hwaiting

namespace SerialPortStream

/-- The stream has the callback of a write in hand: it waits with its bytes, its promise has not settled, or the call is
left to be made. -/
def InHand (s : SerialPortStream) (write : ℕ) (data : Buffer) : Prop :=
  s._waitingWrite = some (write, data) ∨ (∃ port, .writing port write ∈ s.promises) ∨
    ∃ error kind, .call (.written write error) kind ∈ s.todo

theorem mem_promised {s : SerialPortStream} {write : ℕ} :
    write ∈ s.traffic.promised ↔ ∃ port, .writing port write ∈ s.promises := by
  constructor
  · intro hmem
    obtain ⟨promise, hpromise, hwrite⟩ := List.mem_filterMap.1 hmem
    cases promise with
    | writing port write' =>
      cases hwrite
      exact ⟨port, hpromise⟩
    | _ => cases hwrite
  · rintro ⟨port, hmem⟩
    exact List.mem_filterMap.2 ⟨_, hmem, rfl⟩

theorem mem_endings_due {s : SerialPortStream} {write : ℕ} :
    write ∈ (endings s.traffic.due).map Prod.fst ↔ ∃ error kind, .call (.written write error) kind ∈ s.todo := by
  constructor
  · intro hmem
    obtain ⟨⟨id, error⟩, hend, rfl⟩ := List.mem_map.1 hmem
    obtain ⟨output, hdue, hwritten⟩ := List.mem_filterMap.1 hend
    obtain ⟨task, htask, houtput⟩ := List.mem_filterMap.1 (List.mem_filter.1 hdue).1
    obtain ⟨write, error', rfl⟩ := Output.of_written hwritten
    cases hwritten
    cases task with
    | call output kind =>
      cases houtput
      exact ⟨_, kind, htask⟩
    | _ => cases houtput
  · rintro ⟨error, kind, hmem⟩
    have hdue : Output.written write error ∈ s.traffic.due :=
      List.mem_filter.2 ⟨List.mem_filterMap.2 ⟨_, hmem, rfl⟩, rfl⟩
    exact List.mem_map.2 ⟨(write, error), List.mem_filterMap.2 ⟨_, hdue, rfl⟩, rfl⟩

theorem InHand.held {s : SerialPortStream} {write : ℕ} {data : Buffer} (h : s.InHand write data) : write ∈ s.traffic.held := by
  rw [Traffic.held, List.mem_append, List.mem_append, mem_promised, mem_endings_due, or_assoc]
  refine h.imp_left fun hwaiting => ?_
  have hwaiting' : s.traffic.waiting = some (write, data) := hwaiting
  simp [hwaiting']

/-- A write that was handed over has ended, or the stream has it in hand. -/
theorem ended_iff {s : SerialPortStream} {outputs : List Output} (h : Accounted outputs s.traffic) {write : ℕ}
    {data : Buffer} (hmem : (write, data) ∈ handings outputs) :
    write ∈ (endings outputs).map Prod.fst ↔ ¬ s.InHand write data := by
  have hnodup := List.nodup_range (n := s.traffic.writes)
  have hsplit : (endings outputs).map Prod.fst ++ s.traffic.writing.toList = (handings outputs).map Prod.fst := by
    rw [h.ended, h.numbered]
  have hheld : s.InHand write data ↔ write ∈ s.traffic.held := by
    refine ⟨InHand.held, ?_⟩
    rw [Traffic.held, List.mem_append, List.mem_append, mem_promised, mem_endings_due, or_assoc, InHand]
    refine Or.imp_left ?_
    · intro hwaiting
      obtain ⟨⟨id, bytes⟩, hslot, rfl⟩ := List.mem_map.1 hwaiting
      have hrequest : (id, bytes) ∈ handings outputs :=
        h.requested.subset (by simp only [Traffic.requests, List.mem_append]; exact .inr (.inr hslot))
      rw [← h.numbered] at hnodup
      have hsame : (id, bytes) = (id, data) := List.inj_on_of_nodup_map hnodup hrequest hmem rfl
      obtain ⟨-, rfl⟩ := Prod.mk.inj hsame
      exact Option.mem_toList.1 hslot
  rw [hheld, h.held.mem_iff]
  constructor
  · intro hend hwriting
    rw [← h.ended] at hnodup
    exact List.disjoint_of_nodup_append hnodup hend hwriting
  · intro hnot
    have hid : write ∈ (handings outputs).map Prod.fst := List.mem_map_of_mem hmem
    rw [← hsplit, List.mem_append] at hid
    exact hid.resolve_right hnot

/-- What `cancel` throws, where the `close` of a failed write calls it, drops the callback of that write. -/
def CancelThrows (s : SerialPortStream) : Input → Prop
  | .throws _ => ∃ write error rest, s.todo = .outside .listener :: .call (.written write error) .listener :: rest
  | _ => False

theorem not_drops {s s' : SerialPortStream} (h : Offered s) {input : Input} {out : List Output}
    (hcancel : ¬ s.CancelThrows input) (hstep : s.step input = some (s', out)) : ¬ s.Drops input := by
  cases input with
  | throws reason => exact hcancel
  | settle index result =>
    rintro ⟨-, hopening, hset⟩
    cases step_runs hstep with
    | settle htodo _ _ =>
      rw [h.promise htodo hopening] at hset
      cases hset
  | _ => exact id

theorem cancelThrows_drops {s s' : SerialPortStream} {outputs out : List Output} (hsound : Sound true s)
    (h : Accounted outputs s.traffic) {input : Input} (hcancel : s.CancelThrows input)
    (hstep : s.step input = some (s', out)) : ∃ write data, (write, data) ∈ handings outputs ∧
      write ∉ (endings (outputs ++ out)).map Prod.fst ∧ ¬ s'.InHand write data := by
  cases input with
  | throws reason =>
    obtain ⟨write, error, rest, htodo⟩ := hcancel
    have hnodup := List.nodup_range (n := s.traffic.writes)
    have hdue : s.traffic.due = .written write error :: moving rest := by rw [traffic, htodo]; rfl
    obtain ⟨hwriting, hheld⟩ := h.held_singleton (show write ∈ s.traffic.held by simp [Traffic.held, hdue])
    rw [← h.ended, hwriting] at hnodup
    have hhanded : write ∈ (handings outputs).map Prod.fst := by
      rw [h.numbered, ← h.ended, hwriting]
      exact List.mem_append_right _ List.mem_cons_self
    obtain ⟨⟨id, data⟩, hmem, rfl⟩ := List.mem_map.1 hhanded
    rw [step, htodo] at hstep
    cases hstep
    refine ⟨id, data, hmem, ?_, fun hinhand => ?_⟩
    · rw [List.append_nil]
      exact fun hend => List.disjoint_of_nodup_append hnodup hend List.mem_cons_self
    · have hclear : Clear true rest := by
        rcases clear_of_listener (htodo ▸ hsound.orderly) with hclear | ⟨-, _, _, _, heq, hclear⟩
        · exact hclear.tail (by simp)
        · exact (List.cons.inj heq).2 ▸ hclear
      have hheld' : id ∈ (({ s with todo := rest } : SerialPortStream).throw reason).traffic.held := hinhand.held
      rw [(throw_quiet { s with todo := rest } reason).traffic hclear] at hheld'
      have hrest : s.traffic.held.length = ({ s with todo := rest } : SerialPortStream).traffic.held.length + 1 := by
        simp only [Traffic.held, hdue, endings_written, List.length_append, List.length_map, List.length_cons]
        rfl
      rw [hheld, List.length_singleton, Nat.right_eq_add, List.length_eq_zero_iff] at hrest
      rw [hrest] at hheld'
      cases hheld'
  | _ => exact hcancel.elim

end SerialPortStream

theorem run_accounted {s s' : SerialPortStream} {inputs : List Input} {outputs : List Output} (hsound : Sound true s)
    (hoffered : Offered s) (h : Accounted [] s.traffic)
    (hcancel : stream.Along (fun _ _ s input => ¬ s.CancelThrows input) s inputs)
    (hrun : stream.run s inputs = some (s', outputs)) : Sound true s' ∧ Offered s' ∧ Accounted outputs s'.traffic := by
  refine Machine.run_rule (fun _ outputs s => Sound true s ∧ Offered s ∧ Accounted outputs s.traffic) ⟨hsound, hoffered, h⟩
    ?_ hcancel hrun
  rintro _ outputs s input s' out ⟨hs, ho, ha⟩ hcancel hstep
  have hgoes := step_goes hs (by simp) hstep
  have hdrops := SerialPortStream.not_drops ho hcancel hstep
  exact ⟨hgoes.sound, offered_step ho hstep, ha.step (hgoes.step.mono fun hyes => hdrops hyes.2)⟩

theorem new_accounted (features : ℕ → Features) (endOnClose : Bool) (highWaterMark : ℕ) (baudRate : Option ℕ) :
    Accounted [] (SerialPortStream.new features endOnClose highWaterMark baudRate).traffic :=
  .start _ rfl rfl rfl rfl rfl

/-- **Writes are neither lost nor repeated**, whatever happens to the port.  Each write is submitted at most once and
with its bytes, and not once its callback was called; the callback is called at most once, and has been called unless
the write waits or its promise has not settled; a write that ends well was submitted; and the slot is never
overwritten. -/
theorem writes_conserved (features : ℕ → Features) (endOnClose : Bool) (highWaterMark : ℕ) (baudRate : Option ℕ)
    (inputs : List Input) {s : SerialPortStream} {outputs : List Output}
    (hcancel : stream.Along (fun _ _ s input => ¬ s.CancelThrows input) (.new features endOnClose highWaterMark baudRate)
      inputs)
    (hrun : stream.run (.new features endOnClose highWaterMark baudRate) inputs = some (s, outputs)) :
    ((handings outputs).map Prod.fst).Nodup ∧ (submissions outputs).Sublist (handings outputs) ∧
    outputs.Pairwise InOrder ∧ ((endings outputs).map Prod.fst).Nodup ∧
    (∀ write ∈ (endings outputs).map Prod.fst, write ∈ (handings outputs).map Prod.fst) ∧
    (∀ write data, (write, data) ∈ handings outputs →
      (write ∈ (endings outputs).map Prod.fst ↔ ¬ s.InHand write data)) ∧
    (∀ write, (write, none) ∈ endings outputs → write ∈ (submissions outputs).map Prod.fst) ∧
    stream.Along (fun _ _ s input => ∀ s' out, stream.step s input = some (s', out) → ∀ slot,
      s._waitingWrite = some slot → s'._waitingWrite = some slot ∨ s'._waitingWrite = none)
      (.new features endOnClose highWaterMark baudRate) inputs ∧
    ∀ input s' out, s.CancelThrows input → stream.step s input = some (s', out) → ∃ write data,
      (write, data) ∈ handings outputs ∧ write ∉ (endings (outputs ++ out)).map Prod.fst ∧ ¬ s'.InHand write data := by
  have hsound := new_sound true features endOnClose highWaterMark baudRate
  have hoffered : Offered (.new features endOnClose highWaterMark baudRate) := .inl fun hno => (Bool.false_ne_true hno).elim
  have hnew := new_accounted features endOnClose highWaterMark baudRate
  obtain ⟨hs, -, h⟩ := run_accounted hsound hoffered hnew hcancel hrun
  have hnodup := List.nodup_range (n := s.traffic.writes)
  refine ⟨?_, (List.sublist_append_left _ _).trans h.requested, h.ordered, ?_, ?_, ?_, ?_, ?_, ?_⟩
  · rw [h.numbered]
    exact hnodup
  · rw [← h.ended] at hnodup
    exact (List.nodup_append.1 hnodup).1
  · intro write hmem
    rw [h.numbered, ← h.ended]
    exact List.mem_append_left _ hmem
  · intro write data hmem
    exact SerialPortStream.ended_iff h hmem
  · intro write hmem
    exact h.succeeded write (by simp [hmem])
  · rintro pre input post rfl s₁ out₁ hpre s₂ out₂ hstep slot hslot
    obtain ⟨hs₁, -, ha₁⟩ := run_accounted hsound hoffered hnew hcancel.of_append hpre
    exact waiting_kept ha₁ (step_goes hs₁ (by simp) hstep).step hslot
  · exact fun input s' out hthrows hstep => SerialPortStream.cancelThrows_drops hs h hthrows hstep

/-- Nothing throws. -/
def Input.quiet : Input → Bool
  | .throws _ => false
  | _ => true

theorem along_quiet {inputs : List Input} (h : inputs.all Input.quiet) (s : SerialPortStream) :
    stream.Along (fun _ _ s input => ¬ s.CancelThrows input) s inputs := by
  rintro pre input post rfl s' outputs - hcancel
  have hquiet : input.quiet := List.all_eq_true.1 h input (List.mem_append_right _ List.mem_cons_self)
  cases input with
  | throws reason => cases hquiet
  | _ => exact hcancel

/-- A write waits through a failed open, and another one for the next open. -/
def requeued : List Input :=
  [.enter (._write [7]), .enter (.open none), .proceed, .returns, .settle 0 (.rejected .other), .proceed, .returns,
    .proceed, .proceed, .returns, .proceed, .enter (._write [8, 9]), .enter (.open none), .proceed, .returns,
    .settle 0 (.port 0 true), .proceed, .returns, .proceed, .proceed, .returns, .proceed, .proceed, .settle 0 .done, .proceed]

/-- A write that waits through a failed open is failed; one that waits for the next open is submitted. -/
theorem writes_conserved_reopened : ∃ s outputs,
    stream.run (.new (fun _ => {}) false 16 none) requeued = some (s, outputs) ∧
    (submissions outputs).Sublist (handings outputs) ∧ submissions outputs = [(1, [8, 9])] ∧
    endings outputs = [(0, some (asError .other)), (1, none)] := by
  refine ⟨_, _, rfl, ?_, rfl, rfl⟩
  exact (writes_conserved (fun _ => {}) false 16 none requeued (along_quiet (by decide) _) rfl).2.1

/-- Port 0 is handed over before it is open, and opens while another port is being opened.  A write of it fails, and the `cancel`
of the other open throws. -/
def abandoned : List Input :=
  [.enter (.open none), .proceed, .returns, .settle 0 (.port 0 false), .proceed, .returns, .proceed, .proceed,
    .enter (.open none), .proceed, .returns, .isOpen 0 true, .enter (._write [7]), .proceed, .returns,
    .settle 1 (.rejected .other), .proceed, .throws .other]

theorem SerialPortStream.not_inHand {s : SerialPortStream} (htodo : s.todo = []) (hwaiting : s._waitingWrite = none)
    (hpromises : ∀ promise ∈ s.promises, promise.write? = none) (write : ℕ) (data : Buffer) : ¬ s.InHand write data := by
  rintro (hwaits | ⟨port, hmem⟩ | ⟨error, kind, hmem⟩)
  · rw [hwaiting] at hwaits
    cases hwaits
  · cases hpromises _ hmem
  · rw [htodo] at hmem
    cases hmem

/-- The callback of the write is never called. -/
theorem write_abandoned : ∃ s outputs, stream.run (.new (fun _ => {}) false 16 none) abandoned = some (s, outputs) ∧
    handings outputs = [(0, [7])] ∧ submissions outputs = [(0, [7])] ∧ endings outputs = [] ∧ s.todo = [] ∧
    ¬ s.InHand 0 [7] :=
  ⟨_, _, rfl, rfl, rfl, rfl, rfl, SerialPortStream.not_inHand rfl rfl (by decide) 0 [7]⟩

end NodeSerialport.Stream
