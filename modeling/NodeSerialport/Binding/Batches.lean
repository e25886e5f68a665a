import NodeSerialport.Binding.Steps
/-!
# Vectored writes

`writev` cuts its buffers into batches within the limits of the native handle, and submits one after the other.

* `Batch.bytes`, `JsBuffer.content` — the bytes of a batch, and what a buffer is asked to contribute;
* `Batch.Fits`, `Batch.Full` — the limits, and why a batch was submitted before the last;
* `Batching.Fits` — the invariant of the two loops;
* `batches_spec` — what `writev` submits.
-/

namespace NodeSerialport.Binding

open Parsers (Buffer)

/-! ### Batches -/

/-- The bytes that reach the native handle. -/
def Batch.bytes (b : Batch) : Buffer := b.segments.flatMap JsBuffer.bytes

/-- `buffer.subarray(0, buffer.length)`. -/
def JsBuffer.content (b : JsBuffer) : Buffer := (b.subarray 0 b.length).bytes

/-- The limits of a batch, and its length hint. -/
structure Batch.Fits (b : Batch) : Prop where
  nonempty : b.bytes ≠ []
  segments : b.segments.length ≤ 1024
  size : b.size = b.bytes.length
  room : b.bytes.length ≤ chunkSize

/-- No more bytes, or no more segments, fit. -/
def Batch.Full (b : Batch) : Prop := b.bytes.length = chunkSize ∨ b.segments.length = 1024

/-- The bytes of the batches that were submitted, and of the one that is being filled. -/
def Batching.bytes (b : Batching) : Buffer := b.sent.flatMap Batch.bytes ++ b.segments.flatMap JsBuffer.bytes

/-- **The invariant of the loops.** -/
structure Batching.Fits (b : Batching) : Prop where
  sent : ∀ batch ∈ b.sent, batch.Fits ∧ batch.Full
  segments : b.segments.length < 1024
  size : b.size = (b.segments.flatMap JsBuffer.bytes).length

/-! ### Segments -/

theorem subarray_length {b : Buffer} {start stop : ℕ} (h : stop ≤ b.length) :
    (Buffer.subarray b start stop).length = stop - start := by
  unfold Buffer.subarray
  rw [List.length_take, List.length_drop]
  omega

theorem subarray_trans {b : Buffer} {start middle stop : ℕ} (h₁ : start ≤ middle) (h₂ : middle ≤ stop) :
    Buffer.subarray b start stop = Buffer.subarray b start middle ++ Buffer.subarray b middle stop := by
  unfold Buffer.subarray
  have hlen : stop - start = (middle - start) + (stop - middle) := by omega
  rw [hlen, List.take_add, List.drop_drop]
  congr 3
  omega

theorem segment_bytes (b : JsBuffer) (offset count : ℕ) :
    (b.segment offset count).bytes = Buffer.subarray b.bytes offset (offset + count) := by
  unfold JsBuffer.segment
  split
  · rename_i hwhole
    obtain ⟨rfl, rfl⟩ := hwhole
    unfold Buffer.subarray
    rw [List.drop_zero, List.take_of_length_le (by omega)]
  · rfl

/-! ### The loops -/

namespace Batching

variable {b : Batching}

theorem start : Fits {} := ⟨fun _ h => absurd h List.not_mem_nil, by decide, rfl⟩

/-- **One segment** is added, and a batch that is full is submitted. -/
theorem push_spec (h : b.Fits) {segment : JsBuffer} {count : ℕ} (hcount : count ≤ chunkSize - b.size) (hpos : 0 < count)
    (hbytes : segment.bytes.length = count) :
    (b.push segment count hcount).Fits ∧ (b.push segment count hcount).bytes = b.bytes ++ segment.bytes := by
  have hsize := h.size
  have hroom := b.room
  have hsegments := h.segments
  have hlen : (b.segments ++ [segment]).length = b.segments.length + 1 := List.length_append
  have hflat : (b.segments ++ [segment]).flatMap JsBuffer.bytes = b.segments.flatMap JsBuffer.bytes ++ segment.bytes := by
    rw [List.flatMap_append, List.flatMap_singleton]
  have htotal : ((b.segments ++ [segment]).flatMap JsBuffer.bytes).length = b.size + count := by
    rw [hflat, List.length_append, hbytes, hsize]
  unfold push
  dsimp only
  split
  · rename_i hfull
    have hbatch : (⟨b.segments ++ [segment], b.size + count⟩ : Batch).Fits := by
      refine ⟨?_, hlen.trans_le hsegments, htotal.symm, ?_⟩
      · apply List.ne_nil_of_length_pos
        show 0 < ((b.segments ++ [segment]).flatMap JsBuffer.bytes).length
        omega
      · show ((b.segments ++ [segment]).flatMap JsBuffer.bytes).length ≤ chunkSize
        omega
    refine ⟨⟨?_, Nat.succ_pos 1023, rfl⟩, ?_⟩
    · intro batch hmem
      rcases List.mem_append.1 hmem with hmem | hmem
      · exact h.sent batch hmem
      · rw [List.mem_singleton.1 hmem]
        exact ⟨hbatch, hfull.imp_left htotal.trans⟩
    · unfold Batching.bytes
      rw [List.flatMap_append, List.flatMap_singleton, List.flatMap_nil, List.append_nil, List.append_assoc, ← hflat]
      rfl
  · rename_i hnot
    rw [not_or] at hnot
    refine ⟨⟨h.sent, ?_, htotal.symm⟩, ?_⟩
    · show (b.segments ++ [segment]).length < 1024
      omega
    · unfold Batching.bytes
      rw [hflat, List.append_assoc]

/-- **The inner loop** adds the bytes of one buffer from the offset on. -/
theorem add_spec {buffer : JsBuffer} (hlength : buffer.length ≤ buffer.bytes.length) {offset : ℕ}
    (hoffset : offset ≤ buffer.length) (h : b.Fits) :
    (b.add buffer offset).Fits ∧
      (b.add buffer offset).bytes = b.bytes ++ Buffer.subarray buffer.bytes offset buffer.length := by
  induction b, offset using Batching.add.induct buffer with
  | case1 b offset hmore count hpos ih =>
    have hcount : count = min (buffer.length - offset) (chunkSize - b.size) := rfl
    have hend : offset + count ≤ buffer.length := by omega
    have hbytes : (buffer.segment offset count).bytes.length = count := by
      rw [segment_bytes, subarray_length (by omega)]
      omega
    obtain ⟨hfits, hpush⟩ := push_spec h (Nat.min_le_right _ _) hpos hbytes
    obtain ⟨hfits', hadd⟩ := ih hend hfits
    rw [Batching.add, dif_pos hmore]
    refine ⟨hfits', hadd.trans ?_⟩
    rw [hpush, segment_bytes, List.append_assoc, ← subarray_trans (by omega) hend]
  | case2 b offset hno =>
    rw [Batching.add, dif_neg hno]
    refine ⟨h, ?_⟩
    unfold Buffer.subarray
    rw [Nat.sub_eq_zero_of_le (Nat.le_of_not_lt hno), List.take_zero, List.append_nil]

/-- **The outer loop** adds the buffers in order. -/
theorem foldl_spec {buffers : List JsBuffer} (hlength : ∀ buffer ∈ buffers, buffer.length ≤ buffer.bytes.length)
    (h : b.Fits) :
    (buffers.foldl (fun b buffer => b.add buffer 0) b).Fits ∧
      (buffers.foldl (fun b buffer => b.add buffer 0) b).bytes = b.bytes ++ buffers.flatMap JsBuffer.content := by
  induction buffers generalizing b with
  | nil => exact ⟨h, (List.append_nil _).symm⟩
  | cons buffer buffers ih =>
    obtain ⟨hfits, hadd⟩ := add_spec (hlength buffer List.mem_cons_self) (Nat.zero_le _) h
    obtain ⟨hfits', hrest⟩ := ih (fun buffer hmem => hlength buffer (List.mem_cons_of_mem _ hmem)) hfits
    rw [List.foldl_cons]
    refine ⟨hfits', ?_⟩
    rw [hrest, hadd, List.append_assoc, List.flatMap_cons]
    rfl

end Batching

/-- **What `writev` submits**, where every batch succeeds. -/
theorem batches_spec {buffers : List JsBuffer} (hlength : ∀ buffer ∈ buffers, buffer.length ≤ buffer.bytes.length) :
    (batches buffers).flatMap Batch.bytes = buffers.flatMap JsBuffer.content ∧
      (∀ batch ∈ batches buffers, batch.Fits) ∧
      ∀ before batch after, batches buffers = before ++ batch :: after → after ≠ [] → batch.Full := by
  obtain ⟨hfits, hbytes⟩ := Batching.foldl_spec hlength Batching.start
  unfold batches
  generalize buffers.foldl (fun (b : Batching) buffer => b.add buffer 0) {} = b at hfits hbytes
  have hstart : Batching.bytes {} = [] := rfl
  have hsize := hfits.size
  rw [hstart, List.nil_append] at hbytes
  dsimp only
  split
  · rename_i hzero
    have hempty : b.segments.flatMap JsBuffer.bytes = [] := List.eq_nil_of_length_eq_zero (by omega)
    refine ⟨?_, fun batch hmem => (hfits.sent batch hmem).1, ?_⟩
    · rw [← hbytes, Batching.bytes, hempty, List.append_nil]
    · intro before batch after hsplit _
      exact (hfits.sent batch (by rw [hsplit]; simp)).2
  · rename_i hsome
    have hroom := b.room
    have hsegments := hfits.segments
    have hlast : (⟨b.segments, b.size⟩ : Batch).Fits := by
      refine ⟨?_, hsegments.le, hsize, hsize ▸ hroom.le⟩
      apply List.ne_nil_of_length_pos
      show 0 < (b.segments.flatMap JsBuffer.bytes).length
      omega
    refine ⟨?_, ?_, ?_⟩
    · rw [← hbytes, List.flatMap_append, List.flatMap_singleton]
      rfl
    · intro batch hmem
      rcases List.mem_append.1 hmem with hmem | hmem
      · exact (hfits.sent batch hmem).1
      · rw [List.mem_singleton.1 hmem]
        exact hlast
    · intro before batch after hsplit hafter
      obtain ⟨rest, last, rfl⟩ := List.eq_nil_or_concat after |>.resolve_left hafter
      have hsent : b.sent = before ++ batch :: rest := by
        rw [List.concat_eq_append, ← List.cons_append, ← List.append_assoc] at hsplit
        exact (List.append_inj' hsplit rfl).1
      exact (hfits.sent batch (by rw [hsent]; simp)).2

end NodeSerialport.Binding
