import NodeSerialport.Binding.Vectored
/-!
# What a write hands over

* `Method.data` — the bytes a write hands over to the native handle;
* `Writer.submits` — the write that hands its bytes over, step by step.
-/

namespace NodeSerialport.Binding

open Parsers (Buffer)

/-! ### Its bytes -/

/-- The buffers of a write. -/
def Method.buffers : Method → List JsBuffer
  | .write buffer => [buffer]
  | .writev buffers => buffers
  | _ => []

/-- **What a write hands over.** -/
def Method.data : Method → Buffer
  | .write buffer =>
    if chunkSize < buffer.length then (batches [buffer]).flatMap Batch.bytes
    else if buffer.length = 0 then [] else buffer.bytes
  | .writev buffers => (batches buffers).flatMap Batch.bytes
  | _ => []

theorem Method.data_vectored {m : Method} {buffers : List JsBuffer} (h : m.vectored = some buffers) :
    m.data = (batches buffers).flatMap Batch.bytes := by
  cases m with
  | write buffer =>
    simp only [Method.vectored] at h
    split at h
    · rename_i hlarge
      cases h
      simp only [Method.data, if_pos hlarge]
    · cases h
  | writev buffers =>
    cases h
    rfl
  | _ => cases h

theorem Method.data_write {buffer : JsBuffer} (hsome : 0 < buffer.length) (hscalar : buffer.length ≤ chunkSize) :
    (Method.write buffer).data = buffer.bytes := by
  simp only [Method.data]
  rw [if_neg (Nat.not_lt.2 hscalar), if_neg (Nat.ne_of_gt hsome)]

theorem Method.data_empty {buffer : JsBuffer} (hnone : buffer.length = 0) : (Method.write buffer).data = [] := by
  simp [Method.data, hnone]

theorem JsBuffer.content_eq {buffer : JsBuffer} (h : buffer.length = buffer.bytes.length) : buffer.content = buffer.bytes := by
  show Buffer.subarray buffer.bytes 0 buffer.length = buffer.bytes
  unfold Buffer.subarray
  simp [h]

/-- Where the buffers are as long as they say, these are their bytes. -/
theorem Method.data_eq {m : Method} (h : ∀ buffer ∈ m.buffers, buffer.length = buffer.bytes.length) :
    m.data = m.buffers.flatMap JsBuffer.bytes := by
  have hbatches : ∀ buffers : List JsBuffer, (∀ buffer ∈ buffers, buffer.length = buffer.bytes.length) →
      (batches buffers).flatMap Batch.bytes = buffers.flatMap JsBuffer.bytes := by
    intro buffers hlength
    rw [(batches_spec fun buffer hmem => (hlength buffer hmem).le).1]
    exact List.flatMap_congr fun buffer hmem => JsBuffer.content_eq (hlength buffer hmem)
  cases m with
  | write buffer =>
    have hlength := h buffer (List.mem_singleton_self _)
    simp only [Method.data, Method.buffers, List.flatMap_singleton]
    split
    · rw [hbatches [buffer] h, List.flatMap_singleton]
    · split
      · rename_i hzero
        rw [hlength, List.length_eq_zero_iff] at hzero
        exact hzero.symm
      · rfl
  | writev buffers => exact hbatches buffers h
  | _ => rfl

/-! ### Its way -/

/-- The write that hands its bytes over. -/
def Writer.submits : Writer → Option ℕ
  | .submitting method _ | .batching method _ _ _ => some method
  | _ => none

/-- The promise of a loop is the one after that of its method. -/
def Writer.Numbered (w : Writer) : Prop :=
  ∀ method promise rest stage, w = .batching method promise rest stage → promise = method + 1

theorem WriterStep.numbered {c c' : Client} {i : Input} {out : List Output} {w w' : Writer} (h : WriterStep c i c' out w w')
    (hw : w.Numbered) : w'.Numbered := by
  have hadvances : ∀ {method promise : ℕ} {batches : List Batch} {w' : Writer}, promise = method + 1 →
      Client.Advances c' method promise batches w' → w'.Numbered := by
    intro method promise batches w' heq ha
    cases ha with
    | done =>
      intro _ _ _ _ hw'
      cases hw'
    | called | refused =>
      rintro _ _ _ _ ⟨⟩
      exact heq
  cases h with
  | stays | refused => exact hw
  | loops hi hbuffers h => exact hadvances rfl h
  | begins | empty | thrown | completed | queued | failed | ends =>
    intro _ _ _ _ hw'
    cases hw'
  | answered hi ha =>
    rintro _ _ _ _ ⟨⟩
    exact hw _ _ _ _ rfl
  | goes hi htask hresult h => exact hadvances (hw _ _ _ _ rfl) h

/-- Only a new write begins to hand its bytes over. -/
theorem WriterStep.submits {c c' : Client} {i : Input} {out : List Output} {w w' : Writer} (h : WriterStep c i c' out w w')
    {method : ℕ} (hw : w'.submits = some method) : w.submits = some method ∨ method = c.promises := by
  have hadvances : ∀ {m promise : ℕ} {batches : List Batch} {w' : Writer}, Client.Advances c' m promise batches w' →
      w'.submits = some method → method = m := by
    intro m promise batches w' ha hs
    cases ha with
    | done => cases hs
    | called | refused => exact (Option.some.inj hs).symm
  cases h with
  | stays | refused => exact .inl hw
  | loops hi hbuffers h => exact .inr (hadvances h hw)
  | begins =>
    cases hw
    exact .inr rfl
  | empty | thrown | completed | queued | failed | ends => cases hw
  | answered hi ha => exact .inl hw
  | goes hi htask hresult h =>
    obtain rfl := hadvances h hw
    exact .inl rfl

theorem Client.At.submits_lt {c : Client} {w : Writer} (h : c.At w) (hm : Methodical c) {method : ℕ}
    (hw : w.submits = some method) : method < c.promises := by
  cases w with
  | submitting m buffer =>
    obtain rfl := Option.some.inj hw
    obtain ⟨id, inline, hwriting⟩ := h.calls
    have hcalling := (Option.filter_eq_some_iff.1 hwriting).1
    apply hm.made
    unfold Client.methods
    rw [hcalling]
    exact List.mem_append_right _ (List.mem_singleton_self _)
  | batching m promise rest stage =>
    obtain rfl := Option.some.inj hw
    have hmem : (Awaited.promise promise, Task.write m) ∈ c.tasks := by
      apply h.task_mem
      cases stage <;> exact List.mem_cons_self
    exact hm.made m (Methodical.task_mem hmem rfl)
  | idle | waiting => cases hw

end NodeSerialport.Binding
