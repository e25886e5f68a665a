import NodeSerialport.Lib.Machine
import NodeSerialport.Parsers.ByteQueue
/-!
# Runs of the byte queue

The operations of `ByteQueue` as they change its fields, one after the other: an exception leaves the queue as it is at
that point.

* `ByteQueue.discardLoop`, `ByteQueue.discarded`, `ByteQueue.taken` — `discard` and `take`, assignment by assignment;
* `Operation`, `ByteQueue.apply`, `queue` — any operation, and the machine of them;
* `byteList` — what the operations are for: the same on a list of bytes;
* `apply_refines` — one operation of the queue is that of the list; `queue_refines_list` — any sequence is.
-/

namespace NodeSerialport.Parsers

open Lib (Machine)

/-! ### The operations, assignment by assignment -/

inductive Operation where
  | append (buffer : Buffer)
  | peek (length : ℕ)
  /-- The length defaults to that of the queue. -/
  | take (length : Option ℕ)
  | discard (length : ℕ)
  | clear
  deriving DecidableEq, Repr

/-- What an operation returns, if it returns anything, or throws. -/
abbrev Answer := Except String (Option Buffer)

namespace ByteQueue

/-- The loop of `discard`: `none` where it ends, or the exception. -/
def discardLoop (q : ByteQueue) (length : ℕ) : ByteQueue × Option String :=
  if length = 0 then (q, none)
  else
    match _h : q.chunks[q.head]? with
    | some (some chunk) =>
      let available := chunk.length - q.offset
      if length < available then ({ q with offset := q.offset + length }, none)
      else
        discardLoop { q with chunks := q.chunks.set q.head none, head := q.head + 1, offset := 0 } (length - available)
    | _ => (q, some typeError)
termination_by q.chunks.length - q.head
decreasing_by
  have := (List.getElem?_eq_some_iff.1 _h).1
  simp only [List.length_set]
  omega

def discarded (q : ByteQueue) (length : ℕ) : ByteQueue × Option String :=
  if length > q.length then (q, some "Invalid byte count")
  else
    match discardLoop { q with length := q.length - length } length with
    | (q, some message) => (q, some message)
    | (q, none) =>
      if q.length = 0 then (q.clear, none)
      else if q.head ≥ 64 ∧ q.head * 2 ≥ q.chunks.length then
        ({ q with chunks := q.chunks.drop q.head, head := 0 }, none)
      else (q, none)

def taken (q : ByteQueue) (length : ℕ) : ByteQueue × Answer :=
  match q.peek length with
  | .error message => (q, .error message)
  | .ok result =>
    match q.discarded length with
    | (q, some message) => (q, .error message)
    | (q, none) => (q, .ok (some result))

def apply (q : ByteQueue) : Operation → ByteQueue × Answer
  | .append buffer => (q.append buffer, .ok none)
  | .peek length => (q, (q.peek length).map some)
  | .take length => q.taken (length.getD q.length)
  | .discard length =>
    match q.discarded length with
    | (q, some message) => (q, .error message)
    | (q, none) => (q, .ok none)
  | .clear => (q.clear, .ok none)

end ByteQueue

def queue : Machine ByteQueue Operation Answer := ⟨fun q operation => some ((q.apply operation).1, [(q.apply operation).2])⟩

/-- What the operations are for. -/
def listApply (bytes : Buffer) : Operation → Buffer × Answer
  | .append buffer => (bytes ++ buffer, .ok none)
  | .peek length =>
    if length ≤ bytes.length then (bytes, .ok (some (bytes.take length))) else (bytes, .error "Not enough buffered bytes")
  | .take length =>
    if length.getD bytes.length ≤ bytes.length then
      (bytes.drop (length.getD bytes.length), .ok (some (bytes.take (length.getD bytes.length))))
    else (bytes, .error "Not enough buffered bytes")
  | .discard length =>
    if length ≤ bytes.length then (bytes.drop length, .ok none) else (bytes, .error "Invalid byte count")
  | .clear => ([], .ok none)

def byteList : Machine Buffer Operation Answer :=
  ⟨fun bytes operation => some ((listApply bytes operation).1, [(listApply bytes operation).2])⟩

/-! ### `discard` -/

namespace ByteQueue

theorem consumed_none (chunks : List (Option Buffer)) (head : ℕ) :
    chunks.take head ++ List.replicate 0 none ++ chunks.drop head = chunks := by
  rw [List.replicate_zero, List.append_nil, List.take_append_drop]

theorem set_consumed {chunks : List (Option Buffer)} {head : ℕ} {slot : Option Buffer} {rest : List (Option Buffer)}
    (h : chunks.drop head = slot :: rest) (slots : ℕ) :
    (chunks.set head none).take (head + 1) ++ List.replicate slots none ++
        (chunks.set head none).drop (head + 1 + slots) =
      chunks.take head ++ List.replicate (slots + 1) none ++ chunks.drop (head + (slots + 1)) := by
  have hlt : head < chunks.length := by
    by_contra hge
    rw [List.drop_eq_nil_of_le (Nat.le_of_not_lt hge)] at h
    cases h
  have htake : (chunks.set head none).take (head + 1) = chunks.take head ++ [none] := by
    rw [List.take_succ_eq_append_getElem (by rw [List.length_set]; exact hlt), List.take_set_of_le le_rfl,
      List.getElem_set_self]
  have hdrop : (chunks.set head none).drop (head + 1 + slots) = chunks.drop (head + (slots + 1)) := by
    rw [List.drop_set_of_lt (by omega), show head + 1 + slots = head + (slots + 1) by omega]
  rw [htake, hdrop, List.replicate_succ]
  simp

/-- The loop on the slots is the loop on the chunks that are left. -/
theorem discardLoop_eq (slots : List (Option Buffer)) : ∀ (q : ByteQueue) (n k offset : ℕ), q.chunks.drop q.head = slots →
    consume slots q.offset n = .ok (k, offset) →
    q.discardLoop n = ({ q with
      chunks := q.chunks.take q.head ++ List.replicate k none ++ q.chunks.drop (q.head + k)
      head := q.head + k
      offset := offset }, none) := by
  induction slots with
  | nil =>
    intro q n k offset hdrop hconsume
    cases n with
    | zero =>
      cases hconsume
      rw [discardLoop, if_pos rfl]
      simp only [Nat.add_zero, consumed_none]
    | succ n => cases hconsume
  | cons slot rest ih =>
    intro q n k offset hdrop hconsume
    cases n with
    | zero =>
      have hnone : k = 0 ∧ offset = q.offset := by
        cases slot <;> simpa [consume, eq_comm] using hconsume
      obtain ⟨rfl, rfl⟩ := hnone
      rw [discardLoop, if_pos rfl]
      simp only [Nat.add_zero, consumed_none]
    | succ n =>
      cases slot with
      | none => cases hconsume
      | some chunk =>
        have hslot : q.chunks[q.head]? = some (some chunk) := by
          rw [← List.head?_drop, hdrop]
          rfl
        have hnext : (q.chunks.set q.head none).drop (q.head + 1) = rest := by
          rw [List.drop_set_of_lt (Nat.lt_add_one _), ← List.drop_drop, hdrop]
          rfl
        have hloop : q.discardLoop (n + 1) = if n + 1 < chunk.length - q.offset then
            ({ q with offset := q.offset + (n + 1) }, none) else
            discardLoop { q with chunks := q.chunks.set q.head none, head := q.head + 1, offset := 0 }
              (n + 1 - (chunk.length - q.offset)) := by
          rw [discardLoop, if_neg (Nat.succ_ne_zero n)]
          split
          · rename_i first hfirst
            cases hslot.symm.trans hfirst
            rfl
          · rename_i hother
            exact absurd hslot (hother chunk)
        rw [hloop]
        simp only [consume] at hconsume
        split
        · rename_i hlt
          rw [if_pos hlt] at hconsume
          cases hconsume
          simp only [Nat.add_zero, consumed_none]
        · rename_i hge
          rw [if_neg hge] at hconsume
          obtain ⟨⟨slots, offset'⟩, hrest, hdone⟩ := bind_eq_ok hconsume
          cases hdone
          rw [ih { q with chunks := q.chunks.set q.head none, head := q.head + 1, offset := 0 } _ slots offset' hnext hrest]
          simp only [set_consumed hdrop]
          rw [show q.head + 1 + slots = q.head + (slots + 1) by omega]

theorem discarded_eq {q q' : ByteQueue} {n : ℕ} (h : q.discard n = .ok q') : q.discarded n = (q', none) := by
  unfold discard at h
  split at h
  · cases h
  · rename_i hle
    obtain ⟨⟨k, offset⟩, hconsume, hdone⟩ := bind_eq_ok h
    cases hdone
    unfold discarded
    rw [if_neg hle, discardLoop_eq _ { q with length := q.length - n } n k offset rfl hconsume]
    simp only [release]
    split
    · rfl
    split
    · rfl
    · rfl

theorem discarded_error {q : ByteQueue} {n : ℕ} (h : q.length < n) :
    q.discarded n = (q, some "Invalid byte count") := by
  unfold discarded
  rw [if_pos h]

theorem taken_eq {q q' : ByteQueue} {n : ℕ} {result : Buffer} (h : q.take n = .ok (result, q')) :
    q.taken n = (q', .ok (some result)) := by
  obtain ⟨bytes, hpeek, hrest⟩ := bind_eq_ok h
  obtain ⟨left, hdiscard, hdone⟩ := bind_eq_ok hrest
  cases hdone
  unfold taken
  rw [hpeek]
  simp only
  rw [discarded_eq hdiscard]

theorem taken_error {q : ByteQueue} {n : ℕ} (h : q.length < n) :
    q.taken n = (q, .error "Not enough buffered bytes") := by
  unfold taken
  rw [peek_error h]

end ByteQueue

/-! ### Refinement -/

/-- **One operation.**  It keeps the representation, and acts on the bytes as on a list. -/
theorem apply_refines {q : ByteQueue} (h : q.WF) (operation : Operation) :
    (q.apply operation).1.WF ∧ listApply q.bytes operation = ((q.apply operation).1.bytes, (q.apply operation).2) := by
  have hlength := h.length_eq
  cases operation with
  | append buffer =>
    obtain ⟨hwf, hbytes⟩ := ByteQueue.append_spec h buffer
    refine ⟨hwf, ?_⟩
    show (q.bytes ++ buffer, _) = ((q.append buffer).bytes, _)
    rw [hbytes]
    rfl
  | peek length =>
    refine ⟨h, ?_⟩
    show (if length ≤ q.bytes.length then _ else _) = (q.bytes, (q.peek length).map some)
    split
    · rename_i hle
      rw [ByteQueue.peek_spec h (hlength ▸ hle)]
      rfl
    · rename_i hlt
      rw [ByteQueue.peek_error (hlength ▸ Nat.lt_of_not_le hlt)]
      rfl
  | take length =>
    show (q.taken (length.getD q.length)).1.WF ∧
      (if length.getD q.bytes.length ≤ q.bytes.length then _ else _) =
        ((q.taken (length.getD q.length)).1.bytes, (q.taken (length.getD q.length)).2)
    rw [← hlength]
    split
    · rename_i hle
      obtain ⟨q', htake, hwf, hbytes⟩ := ByteQueue.take_spec h hle
      rw [ByteQueue.taken_eq htake]
      exact ⟨hwf, by rw [hbytes]⟩
    · rename_i hlt
      rw [ByteQueue.taken_error (Nat.lt_of_not_le hlt)]
      exact ⟨h, rfl⟩
  | discard length =>
    simp only [ByteQueue.apply, listApply]
    rw [← hlength]
    by_cases hle : length ≤ q.length
    · obtain ⟨q', hdiscard, hwf, hbytes⟩ := ByteQueue.discard_spec h hle
      rw [ByteQueue.discarded_eq hdiscard, if_pos hle]
      exact ⟨hwf, by rw [hbytes]⟩
    · rw [ByteQueue.discarded_error (Nat.lt_of_not_le hle), if_neg hle]
      exact ⟨h, rfl⟩
  | clear => exact ⟨ByteQueue.wf_empty, rfl⟩

/-- A queue and the bytes it stands for. -/
def Stands (q : ByteQueue) (bytes : Buffer) : Prop := q.WF ∧ bytes = q.bytes

theorem stands_step {q : ByteQueue} {bytes : Buffer} (operation : Operation) (h : Stands q bytes) :
    ∃ q' bytes' answers, queue.step q operation = some (q', answers) ∧
      byteList.step bytes operation = some (bytes', answers) ∧ Stands q' bytes' := by
  obtain ⟨hwf, rfl⟩ := h
  obtain ⟨hwf', happly⟩ := apply_refines hwf operation
  refine ⟨_, (q.apply operation).1.bytes, _, rfl, ?_, hwf', rfl⟩
  show some ((listApply q.bytes operation).1, [(listApply q.bytes operation).2]) = _
  rw [happly]

namespace ByteQueue

theorem WF.first {q : ByteQueue} (h : q.WF) (hpos : 0 < q.length) :
    ∃ first, q.chunks[q.head]? = some (some first) ∧ q.offset < first.length := by
  obtain ⟨hnil, -⟩ | ⟨first, rest, hcons, hoffset, -⟩ := h.live.cases
  · have hlength := h.length_eq
    rw [bytes, hnil, flat_nil, List.drop_nil] at hlength
    rw [hlength] at hpos
    cases hpos
  · refine ⟨first, ?_, hoffset⟩
    rw [← List.head?_drop, hcons]
    rfl

theorem WF.nonempty {q : ByteQueue} (h : q.WF) {chunk : Buffer} (hmem : some chunk ∈ q.chunks) : chunk ≠ [] := by
  rw [← List.take_append_drop q.head q.chunks, List.mem_append] at hmem
  rcases hmem with hmem | hmem
  · cases h.cleared _ hmem
  · obtain ⟨b, heq, hb⟩ := h.live.1 _ hmem
    cases heq
    exact hb

end ByteQueue

/-- **The queue is a list of bytes.**  Any sequence of operations answers as it does on a list, throws where the list has
fewer bytes than asked for, and leaves a queue that stands for the list: no retained chunk is empty, the head chunk reaches
beyond the offset, and the length counts the bytes from there on. -/
theorem queue_refines_list (operations : List Operation) : ∃ q answers,
    queue.run {} operations = some (q, answers) ∧ byteList.run [] operations = some (q.bytes, answers) ∧
    q.length = q.bytes.length ∧
    (∀ n, q.length < n →
      q.apply (.peek n) = (q, .error "Not enough buffered bytes") ∧
      q.apply (.take (some n)) = (q, .error "Not enough buffered bytes") ∧
      q.apply (.discard n) = (q, .error "Invalid byte count")) ∧
    (∀ chunk, some chunk ∈ q.chunks → chunk ≠ []) ∧
    (∀ slot ∈ q.chunks.drop q.head, slot.isSome) ∧
    (0 < q.length → ∃ first, q.chunks[q.head]? = some (some first) ∧ q.offset < first.length) ∧
    q.length = (ByteQueue.flat (q.chunks.drop q.head)).length - q.offset := by
  obtain ⟨q, bytes, answers, hqueue, hlist, hwf, rfl⟩ := Machine.run_refines Stands
    (fun _ _ operation h => stands_step operation h) ⟨ByteQueue.wf_empty, rfl⟩ operations
  refine ⟨q, answers, hqueue, hlist, hwf.length_eq, fun n hlt => ⟨?_, ?_, ?_⟩, fun _ => hwf.nonempty, fun slot hmem => ?_,
    hwf.first, ?_⟩
  · rw [ByteQueue.apply, ByteQueue.peek_error hlt]
    rfl
  · exact ByteQueue.taken_error hlt
  · rw [ByteQueue.apply, ByteQueue.discarded_error hlt]
  · obtain ⟨b, rfl, -⟩ := hwf.live.1 slot hmem
    rfl
  · rw [hwf.length_eq, ByteQueue.bytes, List.length_drop]

end NodeSerialport.Parsers
