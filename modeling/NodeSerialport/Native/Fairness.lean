import NodeSerialport.Lib.Machine
import NodeSerialport.Native.Transfer
import Mathlib.Data.List.Chain
/-!
# Reads and writes share the port

`TransferPoller` over a whole sequence of polls: each poll offers a read, a write or both to a port that may answer anything.

* `Attempt`, `poller` — one poll, and the machine that makes them;
* `Attempt.answer`, `halfPoll` — one direction, and the poll of it;
* `Io.stalled`, `Io.interrupted` — the answers that leave a direction for later;
* `poll_pending_iff`, `poll_error`, `poll_alone`: what one poll returns;
* `transfers_alternate`, `transfer_poller_fair`: over any sequence, no direction starves the other.
-/

namespace NodeSerialport.Native

open Parsers (Buffer)
open Lib (Machine)

/-! ### Answers -/

/-- An interruption. -/
def Io.interrupted {α : Type} : Io α → Bool
  | .error failure => failure.kind == .interrupted
  | _ => false

/-- The port is not ready, or was interrupted. -/
def Io.stalled {α : Type} : Io α → Bool
  | .pending => true
  | answer => answer.interrupted

/-- `map_ok`. -/
def Io.map {α β : Type} (f : α → β) : Io α → Io β
  | .pending => .pending
  | .error failure => .error failure
  | .ready value => .ready (f value)

def Transfer.isRead : Transfer → Bool
  | .read _ => true
  | .write _ => false

/-- A poll: what is offered, and what the port would answer in each direction. -/
structure Attempt where
  read : Option ℕ
  write : Option Buffer
  reader : Io Buffer
  writer : Io ℕ

/-- One direction of a poll, the read or the write: whether it is offered, and what the port would answer. -/
def Attempt.answer (a : Attempt) (isRead : Bool) : Bool × Io Transfer :=
  if isRead then (a.read.isSome, a.reader.map .read) else (a.write.isSome, a.writer.map .write)

/-- A direction is offered, and the port is ready for it. -/
def Attempt.Available (a : Attempt) (isRead : Bool) : Prop :=
  (a.answer isRead).1 = true ∧ ∃ transfer, (a.answer isRead).2 = .ready transfer

def TransferPoller.attempt (t : TransferPoller) (a : Attempt) : (Io Transfer × Bool) × TransferPoller :=
  t.poll a.read a.write a.reader a.writer

/-- One poll after the other. -/
def poller : Machine TransferPoller Attempt (Io Transfer × Bool) :=
  ⟨fun t a => some ((t.attempt a).2, [(t.attempt a).1])⟩

/-- The transfer a poll made, if any. -/
def made (result : Io Transfer × Bool) : Option Transfer :=
  match result.1 with
  | .ready transfer => some transfer
  | _ => none

/-- The transfers that took place. -/
def transfers (out : List (Io Transfer × Bool)) : List Transfer := out.filterMap made

/-! ### One direction -/

/-- The poll of one direction. -/
def halfPoll (direction : Bool × Io Transfer) : Io Transfer × Bool :=
  if direction.1 then retryInterrupted direction.2 else (.pending, false)

theorem pollRead_eq (a : Attempt) : pollRead a.read a.reader = halfPoll (a.answer true) := by
  unfold halfPoll Attempt.answer
  cases a.read <;> cases a.reader <;> rfl

theorem pollWrite_eq (a : Attempt) : pollWrite a.write a.writer = halfPoll (a.answer false) := by
  unfold halfPoll Attempt.answer
  cases a.write <;> cases a.writer <;> rfl

theorem halfPoll_pending_iff {direction : Bool × Io Transfer} :
    (halfPoll direction).1 = .pending ↔ (direction.1 = true → direction.2.stalled = true) := by
  obtain ⟨offered, answer⟩ := direction
  cases offered with
  | false => simp [halfPoll]
  | true =>
    cases answer with
    | pending => simp [halfPoll, retryInterrupted, Io.stalled]
    | ready transfer => simp [halfPoll, retryInterrupted, Io.stalled, Io.interrupted]
    | error failure =>
      by_cases hkind : failure.kind = .interrupted <;>
        simp [halfPoll, retryInterrupted, Io.stalled, Io.interrupted, hkind]

theorem halfPoll_woken (direction : Bool × Io Transfer) :
    (halfPoll direction).2 = (direction.1 && direction.2.interrupted) := by
  obtain ⟨offered, answer⟩ := direction
  cases offered with
  | false => simp [halfPoll]
  | true =>
    cases answer with
    | pending => simp [halfPoll, retryInterrupted, Io.interrupted]
    | ready transfer => simp [halfPoll, retryInterrupted, Io.interrupted]
    | error failure =>
      by_cases hkind : failure.kind = .interrupted <;> simp [halfPoll, retryInterrupted, Io.interrupted, hkind]

theorem halfPoll_error {direction : Bool × Io Transfer} {failure : IoError} (hoffered : direction.1 = true)
    (hanswer : direction.2 = .error failure) (hkind : failure.kind ≠ .interrupted) :
    halfPoll direction = (.error failure, false) := by
  simp [halfPoll, hoffered, hanswer, retryInterrupted, hkind]

theorem halfPoll_ready {direction : Bool × Io Transfer} {transfer : Transfer} (hoffered : direction.1 = true)
    (hanswer : direction.2 = .ready transfer) : halfPoll direction = (.ready transfer, false) := by
  simp [halfPoll, hoffered, hanswer, retryInterrupted]

theorem answer_isRead {a : Attempt} {isRead : Bool} {transfer : Transfer} (h : (a.answer isRead).2 = .ready transfer) :
    transfer.isRead = isRead := by
  cases isRead with
  | true =>
    cases hreader : a.reader <;> simp [Attempt.answer, hreader, Io.map] at h
    rw [← h]
    rfl
  | false =>
    cases hwriter : a.writer <;> simp [Attempt.answer, hwriter, Io.map] at h
    rw [← h]
    rfl

/-! ### Both directions -/

theorem andThen_pending {first second : Io Transfer × Bool} (h : first.1 = .pending) :
    andThen first second = (second.1, first.2 || second.2) := by
  obtain ⟨io, woken⟩ := first
  cases h
  rfl

theorem andThen_of_ne {first second : Io Transfer × Bool} (h : first.1 ≠ .pending) : andThen first second = first := by
  obtain ⟨io, woken⟩ := first
  cases io with
  | pending => exact absurd rfl h
  | error failure => rfl
  | ready transfer => rfl

namespace TransferPoller

variable {t : TransferPoller} {a : Attempt}

theorem attempt_result (t : TransferPoller) (a : Attempt) :
    (t.attempt a).1 = andThen (halfPoll (a.answer !t.writeFirst)) (halfPoll (a.answer t.writeFirst)) := by
  have hresult : (t.attempt a).1 = if t.writeFirst then andThen (pollWrite a.write a.writer) (pollRead a.read a.reader)
      else andThen (pollRead a.read a.reader) (pollWrite a.write a.writer) := by
    unfold attempt poll
    dsimp only
    split <;> rfl
  rw [hresult, pollRead_eq, pollWrite_eq]
  cases t.writeFirst <;> rfl

theorem attempt_state (t : TransferPoller) (a : Attempt) :
    (t.attempt a).2 = ((made (t.attempt a).1).map fun transfer => ⟨transfer.isRead⟩).getD t := by
  unfold attempt poll made
  dsimp only
  generalize (if t.writeFirst = true then andThen (pollWrite a.write a.writer) (pollRead a.read a.reader)
      else andThen (pollRead a.read a.reader) (pollWrite a.write a.writer)) = result
  obtain ⟨io, woken⟩ := result
  cases io with
  | pending => rfl
  | error failure => rfl
  | ready transfer => cases transfer <;> rfl

/-- **Pending** means that each direction that is offered is stalled. -/
theorem poll_pending_iff :
    (t.attempt a).1.1 = .pending ↔ ∀ isRead, (a.answer isRead).1 = true → (a.answer isRead).2.stalled = true := by
  have hboth : (t.attempt a).1.1 = .pending ↔
      (halfPoll (a.answer !t.writeFirst)).1 = .pending ∧ (halfPoll (a.answer t.writeFirst)).1 = .pending := by
    rw [attempt_result]
    by_cases h : (halfPoll (a.answer !t.writeFirst)).1 = .pending
    · rw [andThen_pending h]
      exact ⟨fun hsecond => ⟨h, hsecond⟩, fun hboth => hboth.2⟩
    · rw [andThen_of_ne h]
      exact ⟨fun hfirst => absurd hfirst h, fun hboth => hboth.1⟩
  rw [hboth, halfPoll_pending_iff, halfPoll_pending_iff, Bool.forall_bool]
  cases t.writeFirst with
  | false => exact and_comm
  | true => exact Iff.rfl

theorem poll_pending_woken (h : (t.attempt a).1.1 = .pending) {isRead : Bool} (hoffered : (a.answer isRead).1 = true)
    (hinterrupted : (a.answer isRead).2.interrupted = true) : (t.attempt a).1.2 = true := by
  have hfirst := halfPoll_pending_iff.2 (poll_pending_iff.1 h !t.writeFirst)
  rw [attempt_result, andThen_pending hfirst, halfPoll_woken, halfPoll_woken]
  by_cases hisRead : isRead = t.writeFirst
  · rw [← hisRead, hoffered, hinterrupted]
    simp
  · rw [← Bool.eq_not.2 hisRead, hoffered, hinterrupted]
    simp

/-- **A permanent error** is returned: of the direction tried first at once, of the other where the first is stalled or
absent. -/
theorem poll_error {isRead : Bool} {failure : IoError} (hoffered : (a.answer isRead).1 = true)
    (hanswer : (a.answer isRead).2 = .error failure) (hkind : failure.kind ≠ .interrupted)
    (hturn : isRead = t.writeFirst → (a.answer !t.writeFirst).1 = true → (a.answer !t.writeFirst).2.stalled = true) :
    (t.attempt a).1.1 = .error failure := by
  have herror := halfPoll_error hoffered hanswer hkind
  rw [attempt_result]
  by_cases hisRead : isRead = t.writeFirst
  · rw [andThen_pending (halfPoll_pending_iff.2 (hturn hisRead)), ← hisRead, herror]
  · rw [← Bool.eq_not.2 hisRead, herror]
    rfl

/-- **A missing direction** does not delay the other. -/
theorem poll_alone {isRead : Bool} (h : (a.answer isRead).1 = false) : (t.attempt a).1 = halfPoll (a.answer !isRead) := by
  have hmissing : halfPoll (a.answer isRead) = (.pending, false) := by simp [halfPoll, h]
  rw [attempt_result]
  by_cases hisRead : isRead = t.writeFirst
  · rw [← hisRead, hmissing]
    by_cases hother : (halfPoll (a.answer !isRead)).1 = .pending
    · rw [andThen_pending hother, ← hother, Bool.or_false]
    · exact andThen_of_ne hother
  · rw [← Bool.eq_not.2 hisRead, hmissing, Bool.eq_not.2 hisRead, Bool.not_not]
    rfl

theorem attempt_turn (h : a.Available (!t.writeFirst)) :
    ∃ transfer, (t.attempt a).1 = (.ready transfer, false) ∧ transfer.isRead = !t.writeFirst := by
  obtain ⟨hoffered, transfer, hready⟩ := h
  refine ⟨transfer, ?_, answer_isRead hready⟩
  rw [attempt_result, halfPoll_ready hoffered hready]
  rfl

end TransferPoller

/-! ### Over a sequence of polls -/

theorem transfers_append (a b : List (Io Transfer × Bool)) : transfers (a ++ b) = transfers a ++ transfers b :=
  List.filterMap_append

theorem transfers_singleton (result : Io Transfer × Bool) : transfers [result] = (made result).toList := by
  cases h : made result <;> simp [transfers, h]

/-- **Turns.**  Where a direction is available at every poll, no two transfers in a row are of the other one; the next turn
is never that of the direction that transferred last. -/
theorem transfers_alternate {isRead : Bool} {t t' : TransferPoller} {attempts : List Attempt}
    {out : List (Io Transfer × Bool)} (hrun : poller.run t attempts = some (t', out))
    (h : ∀ a ∈ attempts, a.Available isRead) :
    (transfers out).IsChain (fun before after => before.isRead = isRead ∨ after.isRead = isRead) ∧
      ∀ last ∈ (transfers out).getLast?, t'.writeFirst = last.isRead := by
  induction attempts using List.reverseRecOn generalizing t' out with
  | nil =>
    cases hrun
    exact ⟨.nil, nofun⟩
  | append_singleton attempts a ih =>
    obtain ⟨t₁, out₁, rest, hrun₁, hlast, rfl⟩ := Machine.run_append_inv hrun
    obtain ⟨t₂, result, rest', hstep, hnil, rfl⟩ := Machine.run_cons_inv hlast
    cases hnil
    obtain ⟨hchain, hturn⟩ := ih hrun₁ fun b hmem => h b (List.mem_append_left _ hmem)
    have havailable := h a (List.mem_append_right _ (List.mem_singleton_self _))
    obtain ⟨rfl, rfl⟩ := Prod.mk.inj (Option.some.inj hstep)
    rw [List.append_nil, transfers_append, transfers_singleton]
    cases hmade : made (t₁.attempt a).1 with
    | none =>
      rw [TransferPoller.attempt_state, hmade, Option.toList_none, List.append_nil]
      exact ⟨hchain, hturn⟩
    | some transfer =>
      rw [TransferPoller.attempt_state, hmade]
      refine ⟨?_, fun last hlast => ?_⟩
      · rw [Option.toList_some, List.isChain_append]
        refine ⟨hchain, .singleton _, fun before hbefore after hafter => ?_⟩
        obtain rfl := Option.some.inj hafter
        by_cases hother : before.isRead = isRead
        · exact .inl hother
        · -- it is the turn of the direction that is available
          have hfirst : isRead = !t₁.writeFirst := by
            rw [hturn before hbefore]
            exact (Bool.not_eq_not.1 (by simpa using fun heq => hother heq)).symm
          obtain ⟨transfer', hresult, hdirection⟩ := TransferPoller.attempt_turn (t := t₁) (hfirst ▸ havailable)
          rw [hresult] at hmade
          obtain rfl := Option.some.inj hmade
          exact .inr (hdirection.trans hfirst.symm)
      · rw [Option.toList_some, List.getLast?_concat] at hlast
        obtain rfl := Option.some.inj hlast
        rfl

/-- **Reads and writes share the port.**  Over every sequence of polls of any port: where a write is offered to a ready port
at each poll, no two transfers in a row are reads, and the other way round.  A poll is pending only if each direction that
is offered is pending or interrupted, and an interruption then woke the task.  A permanent error of the direction tried
first is returned at once, one of the other where the first is absent, pending or interrupted; and a direction that is not
offered does not delay the other. -/
theorem transfer_poller_fair :
    (∀ t attempts t' out, poller.run t attempts = some (t', out) →
      ((∀ a ∈ attempts, a.Available false) →
        (transfers out).IsChain fun before after => ¬ (before.isRead = true ∧ after.isRead = true)) ∧
      ((∀ a ∈ attempts, a.Available true) →
        (transfers out).IsChain fun before after => ¬ (before.isRead = false ∧ after.isRead = false))) ∧
    (∀ (t : TransferPoller) (a : Attempt), (t.attempt a).1.1 = .pending →
      ∀ isRead, (a.answer isRead).1 = true →
        (a.answer isRead).2.stalled = true ∧ ((a.answer isRead).2.interrupted = true → (t.attempt a).1.2 = true)) ∧
    (∀ (t : TransferPoller) (a : Attempt) (isRead : Bool) (failure : IoError), (a.answer isRead).1 = true →
      (a.answer isRead).2 = .error failure → failure.kind ≠ .interrupted →
        (isRead = (!t.writeFirst) → (t.attempt a).1 = (.error failure, false)) ∧
        (((a.answer !isRead).1 = true → (a.answer !isRead).2.stalled = true) → (t.attempt a).1.1 = .error failure)) ∧
    ∀ (t : TransferPoller) (a : Attempt),
      (a.read = none → (t.attempt a).1 = pollWrite a.write a.writer) ∧
        (a.write = none → (t.attempt a).1 = pollRead a.read a.reader) := by
  refine ⟨fun t attempts t' out hrun => ⟨fun h => ?_, fun h => ?_⟩, fun t a hpending isRead hoffered => ⟨?_, ?_⟩,
    fun t a isRead failure hoffered hanswer hkind => ⟨fun hfirst => ?_, fun hother => ?_⟩, fun t a => ⟨fun h => ?_, fun h => ?_⟩⟩
  · refine (transfers_alternate hrun h).1.imp fun before after hturn hboth => ?_
    rcases hturn with hturn | hturn <;> simp [hturn] at hboth
  · refine (transfers_alternate hrun h).1.imp fun before after hturn hboth => ?_
    rcases hturn with hturn | hturn <;> simp [hturn] at hboth
  · exact TransferPoller.poll_pending_iff.1 hpending isRead hoffered
  · exact TransferPoller.poll_pending_woken hpending hoffered
  · rw [TransferPoller.attempt_result, ← hfirst, halfPoll_error hoffered hanswer hkind]
    rfl
  · refine TransferPoller.poll_error hoffered hanswer hkind fun hturn => ?_
    rw [← hturn]
    exact hother
  · have hmissing : (a.answer true).1 = false := by
      rw [Attempt.answer, if_pos rfl, h]
      rfl
    rw [pollWrite_eq]
    exact TransferPoller.poll_alone hmissing
  · have hmissing : (a.answer false).1 = false := by
      rw [Attempt.answer, if_neg Bool.false_ne_true, h]
      rfl
    rw [pollRead_eq]
    exact TransferPoller.poll_alone hmissing

end NodeSerialport.Native
