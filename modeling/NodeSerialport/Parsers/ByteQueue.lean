import NodeSerialport.Parsers.Bytes
import Mathlib.Data.List.Basic
import Mathlib.Order.Nat
import Mathlib.Tactic.Common

/-!
# The byte queue of the frame parsers

`ByteQueue` keeps incoming chunks intact and copies only what spans a chunk boundary.  It is modelled with the
fields of the source: the chunk slots (a consumed slot is `undefined`, here `none`), the index `head` of the first
live slot, the `offset` of the first live byte in it, and the cached `length`.

* `ByteQueue.bytes q` — the list of bytes that `q` stands for;
* `ByteQueue.WF q` — the representation invariant;
* `append_spec`, `peek_spec`, `discard_spec`, `take_spec`, `clear_eq`: each operation keeps `WF` and acts on
  `bytes` as on a list, and a count beyond the length throws and leaves the queue as it was.
-/

namespace NodeSerialport.Parsers

/-- A queue of chunks.  A slot below `head` has been consumed and holds `undefined`. -/
structure ByteQueue where
  chunks : List (Option Buffer) := []
  head : ℕ := 0
  offset : ℕ := 0
  length : ℕ := 0
  deriving DecidableEq, Repr

namespace ByteQueue

/-- Reading a property of a slot that is `undefined` or past the end of the array. -/
def typeError : String := "Cannot read properties of undefined (reading 'length')"

/-- An empty buffer is not retained. -/
def append (q : ByteQueue) (buffer : Buffer) : ByteQueue :=
  if buffer.length ≠ 0 then
    { q with chunks := q.chunks ++ [some buffer], length := q.length + buffer.length }
  else q

/-- The copy loop of `peek`: fill `need` bytes from the slots after the first one. -/
def gather : List (Option Buffer) → ℕ → Except String Buffer
  | _, 0 => .ok []
  | [], _ + 1 => .error typeError
  | none :: _, _ + 1 => .error typeError
  | some chunk :: rest, need + 1 => do
    let copied := chunk.take (need + 1)
    let tail ← gather rest (need + 1 - copied.length)
    return copied ++ tail

/-- The first `length` bytes, as a view of the first chunk where it holds them all, as a copy otherwise. -/
def peek (q : ByteQueue) (length : ℕ) : Except String Buffer :=
  if length = 0 then .ok []
  else if length > q.length then .error "Not enough buffered bytes"
  else
    match q.chunks.drop q.head with
    | some first :: rest =>
      if first.length - q.offset ≥ length then .ok (Buffer.subarray first q.offset (q.offset + length))
      else do
        let copied := first.drop q.offset
        let tail ← gather rest (length - copied.length)
        return copied ++ tail
    | _ => .error typeError

/-- The loop of `discard` over the live slots: how many slots it consumes, and the offset it leaves. -/
def consume : List (Option Buffer) → ℕ → ℕ → Except String (ℕ × ℕ)
  | _, offset, 0 => .ok (0, offset)
  | some chunk :: rest, offset, length + 1 =>
    let available := chunk.length - offset
    if length + 1 < available then .ok (0, offset + (length + 1))
    else do
      let (slots, offset') ← consume rest 0 (length + 1 - available)
      return (slots + 1, offset')
  | _, _, _ + 1 => .error typeError

def clear (_ : ByteQueue) : ByteQueue := {}

/-- The end of `discard`, once `slots` more slots are consumed and `left` bytes remain: an emptied queue is reset,
and a long consumed head is sliced off. -/
def release (q : ByteQueue) (slots offset left : ℕ) : ByteQueue :=
  let head := q.head + slots
  let chunks := q.chunks.take q.head ++ List.replicate slots none ++ q.chunks.drop head
  if left = 0 then clear q
  else if head ≥ 64 ∧ head * 2 ≥ chunks.length then
    { chunks := chunks.drop head, head := 0, offset := offset, length := left }
  else { chunks := chunks, head := head, offset := offset, length := left }

/-- Drop the first `length` bytes. -/
def discard (q : ByteQueue) (length : ℕ) : Except String ByteQueue :=
  if length > q.length then .error "Invalid byte count"
  else do
    let (slots, offset) ← consume (q.chunks.drop q.head) q.offset length
    return q.release slots offset (q.length - length)

def take (q : ByteQueue) (length : ℕ) : Except String (Buffer × ByteQueue) := do
  let result ← q.peek length
  let q' ← q.discard length
  return (result, q')

/-! ### The bytes a queue stands for -/

/-- The live bytes of a list of slots. -/
def flat (slots : List (Option Buffer)) : Buffer := (slots.map fun c => c.getD []).flatten

@[simp] theorem flat_nil : flat [] = [] := rfl
@[simp] theorem flat_cons_some (c : Buffer) (rest : List (Option Buffer)) : flat (some c :: rest) = c ++ flat rest := rfl
@[simp] theorem flat_append (a b : List (Option Buffer)) : flat (a ++ b) = flat a ++ flat b := by
  simp [flat]

/-- The bytes of the queue, in order. -/
def bytes (q : ByteQueue) : Buffer := (flat (q.chunks.drop q.head)).drop q.offset

/-- Slots that hold nonempty chunks, the first of them longer than the offset into it. -/
def Live (slots : List (Option Buffer)) (offset : ℕ) : Prop :=
  (∀ c ∈ slots, ∃ b : Buffer, c = some b ∧ b ≠ []) ∧
  match slots with
  | some first :: _ => offset < first.length
  | _ => offset = 0

/-- The representation invariant. -/
structure WF (q : ByteQueue) : Prop where
  /-- The head is an index of the array, or its end. -/
  head_le : q.head ≤ q.chunks.length
  /-- Consumed slots are cleared. -/
  cleared : ∀ c ∈ q.chunks.take q.head, c = none
  /-- No retained chunk is empty, and the offset lies in the first of them. -/
  live : Live (q.chunks.drop q.head) q.offset
  /-- The cached length counts the live bytes. -/
  length_eq : q.length = q.bytes.length

theorem live_nil : Live [] 0 := ⟨by simp, rfl⟩

theorem Live.tail {first : Buffer} {rest : List (Option Buffer)} {offset : ℕ} (h : Live (some first :: rest) offset) :
    Live rest 0 := by
  obtain ⟨hmem, -⟩ := h
  refine ⟨fun c hc => hmem c (List.mem_cons_of_mem _ hc), ?_⟩
  cases rest with
  | nil => rfl
  | cons c rest =>
    obtain ⟨b, rfl, hb⟩ := hmem c (by simp)
    exact List.length_pos_iff.2 hb

theorem Live.cases {slots : List (Option Buffer)} {offset : ℕ} (h : Live slots offset) :
    (slots = [] ∧ offset = 0) ∨
      ∃ first rest, slots = some first :: rest ∧ offset < first.length ∧ Live rest 0 := by
  cases slots with
  | nil => exact Or.inl ⟨rfl, h.2⟩
  | cons c rest =>
    obtain ⟨b, rfl, -⟩ := h.1 c (by simp)
    exact Or.inr ⟨b, rest, rfl, h.2, h.tail⟩

/-! ### `append` and `clear` -/

theorem wf_empty : WF {} := ⟨le_rfl, by simp, live_nil, rfl⟩

@[simp] theorem bytes_empty : bytes {} = [] := rfl

theorem append_spec {q : ByteQueue} (h : q.WF) (b : Buffer) :
    (q.append b).WF ∧ (q.append b).bytes = q.bytes ++ b := by
  obtain ⟨hle, hcl, hlive, hlen⟩ := h
  by_cases hb : b.length ≠ 0
  · have hdrop : (q.chunks ++ [some b]).drop q.head = q.chunks.drop q.head ++ [some b] :=
      List.drop_append_of_le_length hle
    have hoff : q.offset ≤ (flat (q.chunks.drop q.head)).length := by
      obtain ⟨h1, h2⟩ | ⟨first, rest, h1, h2, -⟩ := hlive.cases
      · rw [h2]; exact Nat.zero_le _
      · rw [h1, flat_cons_some, List.length_append]; omega
    have hbytes : (flat ((q.chunks ++ [some b]).drop q.head)).drop q.offset =
        (flat (q.chunks.drop q.head)).drop q.offset ++ b := by
      rw [hdrop, flat_append, List.drop_append_of_le_length hoff]
      simp
    simp only [append, if_pos hb]
    refine ⟨⟨?_, ?_, ?_, ?_⟩, hbytes⟩
    · simp only [List.length_append, List.length_singleton]; omega
    · rw [List.take_append_of_le_length hle]; exact hcl
    · simp only [hdrop]
      refine ⟨?_, ?_⟩
      · intro c hc
        rcases List.mem_append.1 hc with hc | hc
        · exact hlive.1 c hc
        · exact ⟨b, List.mem_singleton.1 hc, by simpa using hb⟩
      · obtain ⟨h1, h2⟩ | ⟨first, rest, h1, h2, -⟩ := hlive.cases
        · rw [h1, h2]; exact Nat.pos_of_ne_zero hb
        · rw [h1]; exact h2
    · have := congrArg List.length hbytes
      rw [List.length_append] at this
      simp only [bytes] at hlen ⊢
      rw [this, hlen]
  · have hb' : b = [] := by simpa using hb
    simp only [append, if_neg hb]
    exact ⟨⟨hle, hcl, hlive, hlen⟩, by rw [hb', List.append_nil]⟩

@[simp] theorem clear_eq (q : ByteQueue) : q.clear = {} := rfl

/-! ### `peek` -/

theorem gather_spec : ∀ (slots : List (Option Buffer)) (need : ℕ), Live slots 0 → need ≤ (flat slots).length →
    gather slots need = .ok ((flat slots).take need) := by
  intro slots
  induction slots with
  | nil =>
    intro need _ hneed
    have : need = 0 := by simpa using hneed
    subst this
    rfl
  | cons c rest ih =>
    intro need hlive hneed
    obtain ⟨h, -⟩ | ⟨first, rest', h, -, hrest⟩ := hlive.cases
    · cases h
    · obtain ⟨rfl, rfl⟩ := List.cons.inj h
      cases need with
      | zero => simp [gather]
      | succ need =>
        rw [flat_cons_some, List.length_append] at hneed
        have hcl : (first.take (need + 1)).length = min (need + 1) first.length := List.length_take
        have hsub : need + 1 - (first.take (need + 1)).length = need + 1 - first.length := by
          rw [hcl]
          omega
        have hrec : gather rest (need + 1 - (first.take (need + 1)).length) =
            .ok ((flat rest).take (need + 1 - (first.take (need + 1)).length)) := ih _ hrest (by omega)
        simp only [gather, hrec]
        change Except.ok _ = _
        rw [hsub, flat_cons_some, List.take_append]

/-- **`peek`** reads the first bytes. -/
theorem peek_spec {q : ByteQueue} (h : q.WF) {n : ℕ} (hn : n ≤ q.length) : q.peek n = .ok (q.bytes.take n) := by
  unfold peek
  by_cases h0 : n = 0
  · rw [if_pos h0, h0, List.take_zero]
  · rw [if_neg h0, if_neg (by omega)]
    have hlen := h.length_eq
    unfold bytes at hlen ⊢
    obtain ⟨h1, h2⟩ | ⟨first, rest, h1, h2, h3⟩ := h.live.cases
    · rw [h1] at hlen
      simp at hlen
      omega
    · rw [h1, flat_cons_some, List.drop_append_of_le_length (by omega)] at hlen ⊢
      rw [List.length_append, List.length_drop] at hlen
      simp only
      by_cases hf : first.length - q.offset ≥ n
      · rw [if_pos hf, List.take_append_of_le_length (by rw [List.length_drop]; omega), Buffer.subarray,
          Nat.add_sub_cancel_left]
      · rw [if_neg hf, gather_spec rest _ h3 (by rw [List.length_drop]; omega)]
        change Except.ok _ = _
        rw [List.take_append, List.take_of_length_le (i := n) (l := first.drop q.offset)
          (by rw [List.length_drop]; omega)]

theorem peek_error {q : ByteQueue} {n : ℕ} (hn : q.length < n) : q.peek n = .error "Not enough buffered bytes" := by
  unfold peek
  rw [if_neg (by omega), if_pos hn]

/-! ### `discard` -/

theorem consume_spec : ∀ (slots : List (Option Buffer)) (offset n : ℕ), Live slots offset →
    n ≤ ((flat slots).drop offset).length →
    ∃ k offset', consume slots offset n = .ok (k, offset') ∧ k ≤ slots.length ∧ Live (slots.drop k) offset' ∧
      (flat (slots.drop k)).drop offset' = ((flat slots).drop offset).drop n := by
  intro slots
  induction slots with
  | nil =>
    intro offset n hlive hn
    have hn0 : n = 0 := by simpa using hn
    subst hn0
    exact ⟨0, offset, rfl, le_rfl, hlive, by simp⟩
  | cons c rest ih =>
    intro offset n hlive hn
    obtain ⟨h, -⟩ | ⟨first, rest', h, hoff, hrest⟩ := hlive.cases
    · cases h
    · obtain ⟨rfl, rfl⟩ := List.cons.inj h
      cases n with
      | zero => exact ⟨0, offset, by simp [consume], Nat.zero_le _, hlive, by simp⟩
      | succ n =>
        rw [flat_cons_some, List.drop_append_of_le_length (by omega), List.length_append,
          List.length_drop] at hn
        by_cases hlt : n + 1 < first.length - offset
        · refine ⟨0, offset + (n + 1), by simp only [consume, if_pos hlt], Nat.zero_le _, ?_, ?_⟩
          · refine ⟨hlive.1, ?_⟩
            change offset + (n + 1) < first.length
            omega
          · rw [List.drop_zero, List.drop_drop]
        · obtain ⟨k, offset', h1, h2, h3, h4⟩ := ih 0 (n + 1 - (first.length - offset)) hrest
            (by rw [List.drop_zero]; omega)
          refine ⟨k + 1, offset', ?_, by simpa using h2, by simpa using h3, ?_⟩
          · simp only [consume, if_neg hlt, h1]
            rfl
          · have hnil : (first.drop offset).drop (n + 1) = [] :=
              List.drop_eq_nil_of_le (by rw [List.length_drop]; omega)
            rw [List.drop_succ_cons, h4, List.drop_zero, flat_cons_some, List.drop_append_of_le_length (by omega),
              List.drop_append, hnil, List.nil_append, List.length_drop]

/-- Releasing consumed slots keeps the invariant, compaction included. -/
theorem release_spec {q : ByteQueue} (h : q.WF) {k offset left : ℕ} (hk : q.head + k ≤ q.chunks.length)
    (hlive : Live (q.chunks.drop (q.head + k)) offset)
    (hleft : left = ((flat (q.chunks.drop (q.head + k))).drop offset).length) :
    (q.release k offset left).WF ∧
      (q.release k offset left).bytes = (flat (q.chunks.drop (q.head + k))).drop offset := by
  have hcl : (q.chunks.take q.head ++ List.replicate k none).length = q.head + k := by
    rw [List.length_append, List.length_take, List.length_replicate]
    omega
  have hdrop : (q.chunks.take q.head ++ List.replicate k none ++ q.chunks.drop (q.head + k)).drop (q.head + k) =
      q.chunks.drop (q.head + k) := List.drop_left' hcl
  unfold release
  by_cases h0 : left = 0
  · simp only [if_pos h0]
    refine ⟨wf_empty, ?_⟩
    rw [clear, bytes_empty]
    exact (List.length_eq_zero_iff.1 (by omega)).symm
  · simp only [if_neg h0]
    by_cases hc : q.head + k ≥ 64 ∧
        (q.head + k) * 2 ≥ (q.chunks.take q.head ++ List.replicate k none ++ q.chunks.drop (q.head + k)).length
    · -- compaction: the consumed slots are sliced off
      rw [if_pos hc]
      have hb : (ByteQueue.mk ((q.chunks.take q.head ++ List.replicate k none ++
          q.chunks.drop (q.head + k)).drop (q.head + k)) 0 offset left).bytes =
          (flat (q.chunks.drop (q.head + k))).drop offset := by
        simp only [bytes, List.drop_zero, hdrop]
      refine ⟨⟨Nat.zero_le _, by simp, ?_, ?_⟩, hb⟩
      · simp only [List.drop_zero, hdrop]
        exact hlive
      · rw [hb]
        exact hleft
    · rw [if_neg hc]
      have hb : (ByteQueue.mk (q.chunks.take q.head ++ List.replicate k none ++
          q.chunks.drop (q.head + k)) (q.head + k) offset left).bytes =
          (flat (q.chunks.drop (q.head + k))).drop offset := by
        simp only [bytes, hdrop]
      refine ⟨⟨?_, ?_, ?_, ?_⟩, hb⟩
      · simp only [List.length_append, List.length_drop, List.length_take, List.length_replicate]
        omega
      · intro c hcm
        simp only [List.take_left' hcl, List.mem_append] at hcm
        rcases hcm with hcm | hcm
        · exact h.cleared c hcm
        · exact (List.mem_replicate.1 hcm).2
      · simp only [hdrop]
        exact hlive
      · rw [hb]
        exact hleft

/-- **`discard`** drops the first bytes and keeps the invariant. -/
theorem discard_spec {q : ByteQueue} (h : q.WF) {n : ℕ} (hn : n ≤ q.length) :
    ∃ q', q.discard n = .ok q' ∧ q'.WF ∧ q'.bytes = q.bytes.drop n := by
  have hlen := h.length_eq
  have hle := h.head_le
  obtain ⟨k, offset', h1, h2, h3, h4⟩ :=
    consume_spec (q.chunks.drop q.head) q.offset n h.live (by unfold bytes at hlen; omega)
  rw [List.drop_drop] at h3 h4
  rw [List.length_drop] at h2
  have hrest : (flat (q.chunks.drop (q.head + k))).drop offset' = q.bytes.drop n := h4
  have hleft : q.length - n = ((flat (q.chunks.drop (q.head + k))).drop offset').length := by
    rw [hrest, List.length_drop, hlen]
  obtain ⟨hwf, hb⟩ := release_spec h (by omega) h3 hleft
  refine ⟨q.release k offset' (q.length - n), ?_, hwf, by rw [hb, hrest]⟩
  unfold discard
  rw [if_neg (by omega), h1]
  rfl

/-! ### `take` -/

theorem take_spec {q : ByteQueue} (h : q.WF) {n : ℕ} (hn : n ≤ q.length) :
    ∃ q', q.take n = .ok (q.bytes.take n, q') ∧ q'.WF ∧ q'.bytes = q.bytes.drop n := by
  obtain ⟨q', h1, h2, h3⟩ := discard_spec h hn
  refine ⟨q', ?_, h2, h3⟩
  unfold take
  rw [peek_spec h hn, h1]
  rfl

theorem take_all {q : ByteQueue} (h : q.WF) : q.take q.length = .ok (q.bytes, {}) := by
  have hlen := h.length_eq
  obtain ⟨k, offset', hc, -⟩ :=
    consume_spec (q.chunks.drop q.head) q.offset q.length h.live (by unfold bytes at hlen; omega)
  have hd : q.discard q.length = .ok {} := by
    unfold discard
    rw [if_neg (by omega), hc, Nat.sub_self]
    rfl
  unfold take
  rw [peek_spec h le_rfl, hd, List.take_of_length_le (by omega)]
  rfl

theorem discard_length {q q' : ByteQueue} {n : ℕ} (h : q.discard n = .ok q') : q'.length = q.length - n := by
  unfold discard at h
  split at h
  · cases h
  · cases hc : consume (q.chunks.drop q.head) q.offset n with
    | error e => rw [hc] at h; cases h
    | ok r =>
      rw [hc] at h
      obtain rfl := Except.ok.inj h
      simp only [release]
      split
      · rename_i h0
        rw [h0]; rfl
      · split <;> rfl

theorem take_length {q q' : ByteQueue} {n : ℕ} {b : Buffer} (h : q.take n = .ok (b, q')) :
    q'.length = q.length - n := by
  unfold take at h
  cases hp : q.peek n with
  | error e => rw [hp] at h; cases h
  | ok b' =>
    cases hd : q.discard n with
    | error e => rw [hp, hd] at h; cases h
    | ok q'' =>
      rw [hp, hd] at h
      obtain ⟨-, rfl⟩ := Prod.mk.inj (Except.ok.inj h)
      exact discard_length hd

end ByteQueue

end NodeSerialport.Parsers
