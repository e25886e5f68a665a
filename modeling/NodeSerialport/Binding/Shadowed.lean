import NodeSerialport.Binding.Handing
/-!
# Buffers whose `length` is shadowed

JavaScript may give a buffer a property `length` of its own.  `subarray` and `Buffer.from` go by that property; a
typed-array copy and N-API see the view itself.  The source checks the property and hands over the view.

* `View` — a buffer: its memory, the view of it, and what its `length` says;
* `View.write`, `View.writev` — what the two methods submit, on an open port that has room for it;
* `writes_agree_iff` — where both submit `buffer.subarray(0, buffer.length)`;
* `writev_eq_batches` — these are the batches of the `Client`, where no `length` is larger than its view.
-/

namespace NodeSerialport.Binding

open Parsers (Buffer)

/-! ### Buffers of Node -/

/-- A buffer: `size` bytes of `store` from `byteOffset` on.  The memory may be shared with other threads. -/
structure View where
  store : Buffer
  byteOffset : ℕ
  size : ℕ
  length : ℕ
  shared : Bool
  within : byteOffset + size ≤ store.length

/-- `Buffer.poolSize`, and what is in the memory of a new buffer that comes from the pool. -/
structure Pool where
  poolSize : ℕ
  memory : ℕ → UInt8

inductive ViewError where
  | rangeError | invalidTransferSize
  deriving DecidableEq, Repr

namespace View

/-- The bytes N-API sees. -/
def bytes (v : View) : Buffer := (v.store.drop v.byteOffset).take v.size

/-- `new FastBuffer(this.buffer, byteOffset, length)`. -/
def fastBuffer (v : View) (byteOffset length : ℕ) : Except ViewError View :=
  if h : byteOffset + length ≤ v.store.length then
    .ok { v with byteOffset := byteOffset, size := length, length := length, within := h }
  else .error .rangeError

/-- `Buffer.prototype.subarray`, which goes by the property. -/
def subarray (v : View) (start stop : ℕ) : Except ViewError View :=
  let start := min start v.length
  let stop := min stop v.length
  v.fastBuffer (v.byteOffset + start) (stop - start)

/-- A buffer of its own memory. -/
def ofBuffer (buffer : Buffer) : View := ⟨buffer, 0, buffer.length, buffer.length, false, by omega⟩

/-- `Buffer.from(buffer)`.  A short copy is made in the pool: it has the length of the property and the bytes of the
view, which must fit. -/
def copy (pool : Pool) (v : View) : Except ViewError View :=
  if v.length = 0 then .ok (ofBuffer [])
  else if v.length < pool.poolSize / 2 then
    if v.size ≤ v.length then .ok (ofBuffer (v.bytes ++ (List.range' v.size (v.length - v.size)).map pool.memory))
    else .error .rangeError
  else .ok (ofBuffer v.bytes)

def localBuffer (pool : Pool) (v : View) : Except ViewError View := if v.shared then v.copy pool else .ok v

/-! ### What is submitted -/

/-- `NativePort::write`, where the command is taken. -/
def nativeWrite (v : View) : Except ViewError Buffer :=
  if v.size ≤ chunkSize then .ok v.bytes else .error .invalidTransferSize

/-- `NativePort::writev`, where the command is taken. -/
def nativeWritev (buffers : List View) (length : ℕ) : Except ViewError Buffer :=
  if length ≤ chunkSize ∧ buffers.length ≤ 1024 then
    buffers.foldlM (fun data v =>
      if v.size ≤ chunkSize - data.length then .ok (data ++ v.bytes) else .error .invalidTransferSize) []
  else .error .invalidTransferSize

/-- `_request` with the batch of `writev`. -/
def submit (pool : Pool) (batch : List View) (size : ℕ) : Except ViewError Buffer :=
  match batch with
  | [v] => localBuffer pool v >>= nativeWrite
  | batch => batch.mapM (localBuffer pool) >>= fun buffers => nativeWritev buffers size

/-- The bytes a method submitted, call by call, and the error it ended with. -/
structure Submission where
  calls : List Buffer
  failure : Option ViewError
  deriving DecidableEq, Repr

theorem chunkSize_pos : 0 < chunkSize := by decide

/-- The loop of `writev`, which stops at the first error. -/
structure Loop where
  calls : List Buffer := []
  batch : List View := []
  size : ℕ := 0
  room : size < chunkSize := by exact chunkSize_pos

def Loop.submit (pool : Pool) (l : Loop) (batch : List View) (size : ℕ) : Except Submission Loop :=
  match View.submit pool batch size with
  | .ok data => .ok { calls := l.calls ++ [data] }
  | .error failure => .error ⟨l.calls, some failure⟩

/-- The segment of `buffer` a batch takes at `offset`. -/
def segment (v : View) (offset count : ℕ) : Except ViewError View :=
  if offset = 0 ∧ count = v.size then .ok v else v.subarray offset (offset + count)

/-- Add a segment, and submit the batch once it is full. -/
def Loop.push (pool : Pool) (l : Loop) (v : View) (offset count : ℕ) (hcount : count ≤ chunkSize - l.size) :
    Except Submission Loop :=
  match v.segment offset count with
  | .error failure => .error ⟨l.calls, some failure⟩
  | .ok segment =>
    let batch := l.batch ++ [segment]
    if h : l.size + count = chunkSize ∨ batch.length = 1024 then l.submit pool batch (l.size + count)
    else .ok { calls := l.calls, batch := batch, size := l.size + count, room := by have := l.room; omega }

/-- The inner loop of `writev`, over one buffer. -/
def Loop.add (pool : Pool) (l : Loop) (v : View) (offset : ℕ) : Except Submission Loop :=
  if h : offset < v.length then
    let count := min (v.length - offset) (chunkSize - l.size)
    have : 0 < count := by
      have := l.room
      exact Nat.lt_min.2 ⟨by omega, by omega⟩
    match l.push pool v offset count (Nat.min_le_right _ _) with
    | .error submission => .error submission
    | .ok l => l.add pool v (offset + count)
  else .ok l
termination_by v.length - offset

/-- The last batch. -/
def Loop.finish (pool : Pool) (l : Loop) : Submission :=
  if l.size = 0 then ⟨l.calls, none⟩
  else
    match l.submit pool l.batch l.size with
    | .error submission => submission
    | .ok l => ⟨l.calls, none⟩

/-- `writev(buffers)`. -/
def writev (pool : Pool) (buffers : List View) : Submission :=
  match buffers.foldlM (fun l v => l.add pool v 0) ({} : Loop) with
  | .error submission => submission
  | .ok l => l.finish pool

/-- `write(buffer)`. -/
def write (pool : Pool) (v : View) : Submission :=
  if chunkSize < v.length then writev pool [v]
  else if v.length = 0 then ⟨[], none⟩
  else
    match localBuffer pool v >>= nativeWrite with
    | .error failure => ⟨[], some failure⟩
    | .ok data => ⟨[data], none⟩

/-! ### Its bytes -/

variable {pool : Pool} {v : View}

theorem length_bytes (v : View) : v.bytes.length = v.size := by
  unfold bytes
  rw [List.length_take, List.length_drop]
  have := v.within
  omega

theorem ofBuffer_bytes (buffer : Buffer) : (ofBuffer buffer).bytes = buffer := by simp [ofBuffer, bytes]

/-- A part of what the property says, as a buffer of its own. -/
def slice (v : View) (offset count : ℕ) (h : v.byteOffset + offset + count ≤ v.store.length) : View :=
  { v with byteOffset := v.byteOffset + offset, size := count, length := count, within := h }

theorem subarray_eq {offset count : ℕ} (hstop : offset + count ≤ v.length)
    (h : v.byteOffset + offset + count ≤ v.store.length) :
    v.subarray offset (offset + count) = .ok (v.slice offset count h) := by
  unfold subarray fastBuffer
  dsimp only
  simp only [Nat.min_eq_left (show offset ≤ v.length by omega), Nat.min_eq_left hstop, Nat.add_sub_cancel_left]
  exact dif_pos h

theorem copy_plain (h : v.length = v.size) : ∃ w, v.copy pool = .ok w ∧ w.bytes = v.bytes ∧ w.size = v.size := by
  have hlength := v.length_bytes
  unfold copy
  split
  · rename_i hnone
    have hbytes : v.bytes = [] := List.eq_nil_of_length_eq_zero (by omega)
    refine ⟨_, rfl, ?_, ?_⟩
    · rw [ofBuffer_bytes, hbytes]
    · rw [← h, hnone]
      rfl
  split
  · rw [if_pos h.ge]
    refine ⟨_, rfl, ?_, ?_⟩
    · rw [ofBuffer_bytes]
      simp [h]
    · simp [ofBuffer, hlength, h]
  · exact ⟨_, rfl, ofBuffer_bytes _, hlength⟩

theorem copy_long (hsome : v.length ≠ 0) (hlong : pool.poolSize / 2 ≤ v.length) : v.copy pool = .ok (ofBuffer v.bytes) := by
  unfold copy
  rw [if_neg hsome, if_neg (by omega)]

theorem localBuffer_bytes (pool : Pool) {v : View} (hsome : v.length ≠ 0)
    (h : v.shared = true → v.length = v.size ∨ pool.poolSize / 2 ≤ v.length) :
    ∃ w, v.localBuffer pool = .ok w ∧ w.bytes = v.bytes ∧ w.size = v.size := by
  unfold localBuffer
  split
  · rename_i hshared
    rcases h hshared with hplain | hlong
    · exact copy_plain hplain
    · exact ⟨_, copy_long hsome hlong, ofBuffer_bytes _, v.length_bytes⟩
  · exact ⟨v, rfl, rfl, rfl⟩

/-- The bytes of a part of what the property says. -/
def part (v : View) (offset count : ℕ) : Buffer := (v.store.drop (v.byteOffset + offset)).take count

theorem part_add (v : View) (offset count rest : ℕ) :
    v.part offset count ++ v.part (offset + count) rest = v.part offset (count + rest) := by
  unfold part
  rw [List.take_add, List.drop_drop, Nat.add_assoc]

theorem submit_single {w : View} (hlocal : v.localBuffer pool = .ok w) (hsize : w.size ≤ chunkSize) (size : ℕ) :
    submit pool [v] size = .ok w.bytes := by
  show (v.localBuffer pool >>= nativeWrite) = .ok w.bytes
  rw [hlocal]
  exact if_pos hsize

/-- **A segment** is submitted as it should be, but for a view taken as it is whose property says more than it has. -/
theorem submit_segment (pool : Pool) (offset count : ℕ) (hcontent : v.byteOffset + v.length ≤ v.store.length)
    (hpos : 0 < count) (hcount : count ≤ chunkSize) (hoffset : offset + count ≤ v.length)
    (hwhole : offset = 0 → count = v.size → v.shared = true → v.length = v.size ∨ pool.poolSize / 2 ≤ v.length)
    (size : ℕ) :
    ∃ segment, v.segment offset count = .ok segment ∧ submit pool [segment] size = .ok (v.part offset count) := by
  unfold segment
  by_cases htaken : offset = 0 ∧ count = v.size
  · obtain ⟨rfl, rfl⟩ := htaken
    rw [if_pos ⟨rfl, rfl⟩]
    obtain ⟨w, hlocal, hbytes, hsize⟩ := localBuffer_bytes pool (by omega) (hwhole rfl rfl)
    have hsubmit := submit_single hlocal (hsize ▸ hcount) size
    rw [hbytes] at hsubmit
    exact ⟨v, rfl, hsubmit⟩
  · have h : v.byteOffset + offset + count ≤ v.store.length := by omega
    rw [if_neg htaken, subarray_eq hoffset h]
    obtain ⟨w, hlocal, hbytes, hsize⟩ := localBuffer_bytes pool (show (v.slice offset count h).length ≠ 0 from Nat.ne_of_gt hpos)
      fun _ => .inl rfl
    have hsubmit := submit_single hlocal (hsize ▸ hcount) size
    rw [hbytes] at hsubmit
    exact ⟨_, rfl, hsubmit⟩

theorem push_full {l : Loop} (hbatch : l.batch = []) (hsize : l.size = 0) {offset : ℕ} {segment : View} {data : Buffer}
    (hsegment : v.segment offset chunkSize = .ok segment) (hsubmit : submit pool [segment] chunkSize = .ok data)
    (hcount : chunkSize ≤ chunkSize - l.size) :
    l.push pool v offset chunkSize hcount = .ok { calls := l.calls ++ [data] } := by
  unfold Loop.push
  rw [hsegment]
  dsimp only
  rw [dif_pos (.inl (by rw [hsize, Nat.zero_add])), hbatch, hsize, Nat.zero_add]
  unfold Loop.submit
  rw [List.nil_append, hsubmit]

theorem push_part {l : Loop} (hbatch : l.batch = []) (hsize : l.size = 0) {offset count : ℕ} {segment : View}
    (hsegment : v.segment offset count = .ok segment) (hroom : count < chunkSize) (hcount : count ≤ chunkSize - l.size) :
    l.push pool v offset count hcount = .ok { calls := l.calls, batch := [segment], size := count, room := hroom } := by
  unfold Loop.push
  rw [hsegment]
  dsimp only
  have hopen : ¬ (l.size + count = chunkSize ∨ (l.batch ++ [segment]).length = 1024) := by
    rw [hbatch, hsize]
    simp only [List.nil_append, List.length_singleton]
    omega
  rw [dif_neg hopen]
  simp [hbatch, hsize]

theorem add_done (l : Loop) {offset : ℕ} (h : v.length ≤ offset) : l.add pool v offset = .ok l := by
  rw [Loop.add, dif_neg (Nat.not_lt.2 h)]

theorem add_of_push {l l' : Loop} {offset count : ℕ} (hlt : offset < v.length)
    (hcount : count = min (v.length - offset) (chunkSize - l.size)) (hroom : count ≤ chunkSize - l.size)
    (hpush : l.push pool v offset count hroom = .ok l') : l.add pool v offset = l'.add pool v (offset + count) := by
  subst hcount
  rw [Loop.add, dif_pos hlt]
  dsimp only
  rw [hpush]

/-- **The loop over one buffer** submits it piece by piece. -/
theorem add_finish (pool : Pool) {v : View} (hcontent : v.byteOffset + v.length ≤ v.store.length)
    (hwhole : v.size = min v.length chunkSize → v.shared = true → v.length = v.size ∨ pool.poolSize / 2 ≤ v.length)
    (l : Loop) (hbatch : l.batch = []) (hsize : l.size = 0) (offset : ℕ) (hoffset : offset ≤ v.length) :
    ∃ l' calls, l.add pool v offset = .ok l' ∧ l'.finish pool = ⟨calls, none⟩ ∧
      calls.flatten = l.calls.flatten ++ v.part offset (v.length - offset) := by
  induction hrest : v.length - offset using Nat.strong_induction_on generalizing l offset with
  | _ rest ih =>
    by_cases hlt : offset < v.length
    swap
    · obtain rfl : rest = 0 := by omega
      exact ⟨l, l.calls, add_done l (by omega), if_pos hsize, by simp [part]⟩
    by_cases hfull : chunkSize ≤ v.length - offset
    · obtain ⟨segment, hsegment, hsubmit⟩ := submit_segment pool offset chunkSize hcontent
        chunkSize_pos le_rfl (by omega) (fun h₀ hwhole' => hwhole (by omega)) chunkSize
      have hroom : chunkSize ≤ chunkSize - l.size := by omega
      have hadd := add_of_push hlt (by omega) hroom (push_full hbatch hsize hsegment hsubmit hroom)
      have hless : v.length - (offset + chunkSize) < rest := by
        have := chunkSize_pos
        omega
      obtain ⟨l', calls, hrec, hfinish, hcalls⟩ := ih _ hless { calls := l.calls ++ [v.part offset chunkSize] } rfl rfl
        (offset + chunkSize) (by omega) rfl
      refine ⟨l', calls, hadd.trans hrec, hfinish, hcalls.trans ?_⟩
      have hparts : chunkSize + (v.length - (offset + chunkSize)) = rest := by omega
      rw [List.flatten_append, List.flatten_singleton, List.append_assoc, part_add, hparts]
    · obtain ⟨segment, hsegment, hsubmit⟩ := submit_segment pool offset (v.length - offset) hcontent
        (by omega) (by omega) (by omega) (fun h₀ hwhole' => hwhole (by omega)) (v.length - offset)
      have hroom : v.length - offset ≤ chunkSize - l.size := by omega
      have hpush : l.push pool v offset (v.length - offset) hroom = _ :=
        push_part hbatch hsize hsegment (by omega) hroom
      have hadd := add_of_push hlt (by omega) hroom hpush
      refine ⟨_, l.calls ++ [v.part offset (v.length - offset)], hadd.trans (add_done _ (by omega)), ?_, ?_⟩
      · unfold Loop.finish Loop.submit
        rw [if_neg (by show v.length - offset ≠ 0; omega), hsubmit]
      · rw [List.flatten_append, List.flatten_singleton, hrest]

/-- **A vectored write** of one buffer submits the bytes its property says, if the memory has them. -/
theorem writev_content (pool : Pool) {v : View} (hcontent : v.byteOffset + v.length ≤ v.store.length)
    (hwhole : v.size = min v.length chunkSize → v.shared = true → v.length = v.size ∨ pool.poolSize / 2 ≤ v.length) :
    (writev pool [v]).failure = none ∧ (writev pool [v]).calls.flatten = v.part 0 v.length := by
  obtain ⟨l', calls, hadd, hfinish, hcalls⟩ := add_finish pool hcontent hwhole {} rfl rfl 0 (Nat.zero_le _)
  have hwritev : writev pool [v] = ⟨calls, none⟩ := by
    unfold writev
    rw [List.foldlM_cons, hadd]
    exact hfinish
  rw [hwritev]
  exact ⟨rfl, hcalls⟩

/-! ### The batches of the client -/

/-- A buffer as the client sees it. -/
def js (v : View) : JsBuffer := ⟨v.bytes, v.length⟩

/-- A buffer whose memory is its own, and which says no more than it has. -/
def Plain (v : View) : Prop := v.shared = false ∧ v.length ≤ v.size

theorem segment_js (h : v.Plain) {offset count : ℕ} (hoffset : offset + count ≤ v.length) :
    ∃ segment, v.segment offset count = .ok segment ∧ segment.js = v.js.segment offset count ∧ segment.shared = false := by
  have hsize := v.within
  unfold segment JsBuffer.segment
  rw [show v.js.bytes.length = v.size from v.length_bytes]
  by_cases htaken : offset = 0 ∧ count = v.size
  · rw [if_pos htaken, if_pos htaken]
    exact ⟨v, rfl, rfl, h.1⟩
  · have hlength := h.2
    have hmemory : v.byteOffset + offset + count ≤ v.store.length := by omega
    rw [if_neg htaken, if_neg htaken, subarray_eq hoffset hmemory]
    refine ⟨_, rfl, ?_, h.1⟩
    have hbytes : (v.slice offset count hmemory).bytes = Buffer.subarray v.bytes offset (offset + count) := by
      show (v.store.drop (v.byteOffset + offset)).take count =
        (((v.store.drop v.byteOffset).take v.size).drop offset).take (offset + count - offset)
      rw [Nat.add_sub_cancel_left, List.drop_take, List.take_take, List.drop_drop, Nat.min_eq_left (by omega)]
    show JsBuffer.mk _ _ = JsBuffer.ofBytes _
    unfold JsBuffer.ofBytes
    rw [← show (v.slice offset count hmemory).bytes = Buffer.subarray v.js.bytes offset (offset + count) from hbytes,
      length_bytes]
    rfl

theorem nativeWritev_eq {buffers : List View} {data : Buffer}
    (hroom : data.length + (buffers.flatMap bytes).length ≤ chunkSize) :
    buffers.foldlM (fun data v =>
      if v.size ≤ chunkSize - data.length then .ok (data ++ v.bytes) else .error .invalidTransferSize) data =
      (.ok (data ++ buffers.flatMap bytes) : Except ViewError Buffer) := by
  induction buffers generalizing data with
  | nil => exact congrArg Except.ok (List.append_nil data).symm
  | cons v buffers ih =>
    have hlength := v.length_bytes
    rw [List.flatMap_cons, List.length_append] at hroom
    rw [List.foldlM_cons, if_pos (by omega)]
    refine (ih ?_).trans ?_
    · rw [List.length_append]
      omega
    · rw [List.append_assoc, List.flatMap_cons]

/-- **A batch** within the limits is submitted. -/
theorem submit_batch (pool : Pool) {batch : List View} (hown : ∀ v ∈ batch, v.shared = false) (hlength : batch.length ≤ 1024)
    {size : ℕ} (hsize : size = (batch.flatMap bytes).length) (hroom : size ≤ chunkSize) :
    submit pool batch size = .ok (batch.flatMap bytes) := by
  have hlocal : ∀ v ∈ batch, v.localBuffer pool = .ok v := by
    intro v hmem
    exact if_neg (by rw [hown v hmem]; exact Bool.false_ne_true)
  have hmap : batch.mapM (localBuffer pool) = .ok batch := by
    clear hlength hsize hown
    induction batch with
    | nil => rfl
    | cons v batch ih =>
      rw [List.mapM_cons, hlocal v List.mem_cons_self, ih fun w hmem => hlocal w (List.mem_cons_of_mem _ hmem)]
      rfl
  unfold submit
  split
  · rename_i v
    rw [hlocal v List.mem_cons_self]
    rw [List.flatMap_singleton, length_bytes] at hsize
    rw [List.flatMap_singleton]
    exact if_pos (by omega)
  · rw [hmap]
    show nativeWritev batch size = _
    unfold nativeWritev
    rw [if_pos ⟨hroom, hlength⟩]
    exact nativeWritev_eq (by rw [← hsize]; simpa using hroom)

/-- The two loops are at the same place. -/
structure Loop.Models (l : Loop) (b : Batching) : Prop where
  calls : l.calls = b.sent.map Batch.bytes
  batch : l.batch.map js = b.segments
  size : l.size = b.size
  own : ∀ v ∈ l.batch, v.shared = false

theorem flatMap_js (batch : List View) : (batch.map js).flatMap JsBuffer.bytes = batch.flatMap bytes := by
  rw [List.flatMap_map]
  rfl

theorem push_models (pool : Pool) {l : Loop} {b : Batching} (h : l.Models b) (hfits : b.Fits) (hv : v.Plain) {offset count : ℕ}
    (hoffset : offset + count ≤ v.length) (hroom : count ≤ chunkSize - l.size) (hcount : count ≤ chunkSize - b.size) :
    ∃ l', l.push pool v offset count hroom = .ok l' ∧ l'.Models (b.push (v.js.segment offset count) count hcount) := by
  obtain ⟨segment, hsegment, hjs, hown⟩ := segment_js hv hoffset
  have hbatch : (l.batch ++ [segment]).map js = b.segments ++ [v.js.segment offset count] := by
    rw [List.map_append, h.batch, List.map_singleton, hjs]
  have hlength : (l.batch ++ [segment]).length = (b.segments ++ [v.js.segment offset count]).length := by
    rw [← hbatch, List.length_map]
  have hsegments := hfits.segments
  have hown' : ∀ w ∈ l.batch ++ [segment], w.shared = false := by
    intro w hmem
    rcases List.mem_append.1 hmem with hmem | hmem
    · exact h.own w hmem
    · rw [List.mem_singleton.1 hmem]
      exact hown
  unfold Loop.push Batching.push
  rw [hsegment]
  dsimp only
  by_cases hfull : b.size + count = chunkSize ∨ (b.segments ++ [v.js.segment offset count]).length = 1024
  · have hsize : l.size + count = ((l.batch ++ [segment]).flatMap bytes).length := by
      have hcontent : (v.js.segment offset count).bytes.length = count := by
        rw [segment_bytes, subarray_length]
        · omega
        · rw [show v.js.bytes.length = v.size from v.length_bytes]
          exact hoffset.trans hv.2
      rw [← flatMap_js, hbatch, List.flatMap_append, List.length_append, List.flatMap_singleton, hcontent, h.size, hfits.size]
    have hsubmit := submit_batch pool hown' (by rw [hlength, List.length_append, List.length_singleton]; omega) hsize
      (by have := l.room; omega)
    rw [dif_pos (by rwa [h.size, hlength]), dif_pos hfull]
    unfold Loop.submit
    rw [hsubmit]
    refine ⟨_, rfl, ?_, rfl, rfl, fun _ hmem => absurd hmem List.not_mem_nil⟩
    rw [List.map_append, h.calls, List.map_singleton, Batch.bytes, ← hbatch, flatMap_js]
  · rw [dif_neg (by rwa [h.size, hlength]), dif_neg hfull]
    exact ⟨_, rfl, h.calls, hbatch, congrArg (· + count) h.size, hown'⟩

theorem add_models (pool : Pool) {l : Loop} {b : Batching} (h : l.Models b) (hfits : b.Fits) (hv : v.Plain) {offset : ℕ}
    (hoffset : offset ≤ v.length) : ∃ l', l.add pool v offset = .ok l' ∧ l'.Models (b.add v.js offset) := by
  induction b, offset using Batching.add.induct v.js generalizing l with
  | case1 b offset hmore count hpos =>
    rename_i ih
    have hcount : count = min (v.length - offset) (chunkSize - b.size) := rfl
    have hsize := h.size
    have hend : offset + count ≤ v.length := by omega
    have hroom : count ≤ chunkSize - l.size := by omega
    obtain ⟨l₁, hpush, hmodels⟩ := push_models pool h hfits hv hend hroom (Nat.min_le_right _ _)
    have hbytes : (v.js.segment offset count).bytes.length = count := by
      rw [segment_bytes, subarray_length]
      · omega
      · rw [show v.js.bytes.length = v.size from v.length_bytes]
        exact hend.trans hv.2
    obtain ⟨l', hadd, hmodels'⟩ := ih hmodels (Batching.push_spec hfits (Nat.min_le_right _ _) hpos hbytes).1 hend
    rw [Batching.add, dif_pos hmore]
    exact ⟨l', (add_of_push hmore (by omega) hroom hpush).trans hadd, hmodels'⟩
  | case2 b offset hno =>
    rw [Batching.add, dif_neg hno]
    exact ⟨l, add_done l (Nat.le_of_not_lt hno), h⟩

/-- **A vectored write of plain buffers** submits the batches of the client. -/
theorem writev_eq_batches {buffers : List View} (hplain : ∀ v ∈ buffers, v.Plain) :
    writev pool buffers = ⟨(batches (buffers.map js)).map Batch.bytes, none⟩ := by
  have hfold : ∀ {l : Loop} {b : Batching}, l.Models b → b.Fits → ∃ l',
      buffers.foldlM (fun l v => l.add pool v 0) l = (.ok l' : Except Submission Loop) ∧
        l'.Models ((buffers.map js).foldl (fun b buffer => b.add buffer 0) b) := by
    induction buffers with
    | nil => exact fun h _ => ⟨_, rfl, h⟩
    | cons v buffers ih =>
      intro l b h hfits
      have hv := hplain v List.mem_cons_self
      obtain ⟨l₁, hadd, h₁⟩ := add_models pool h hfits hv (Nat.zero_le _)
      have hlength : v.js.length ≤ v.js.bytes.length := hv.2.trans v.length_bytes.ge
      obtain ⟨l', hrest, h'⟩ := ih (fun w hmem => hplain w (List.mem_cons_of_mem _ hmem)) h₁
        (Batching.add_spec hlength (Nat.zero_le _) hfits).1
      refine ⟨l', ?_, h'⟩
      rw [List.foldlM_cons, hadd]
      exact hrest
  obtain ⟨l, hadd, h⟩ := hfold (l := {}) (b := {}) ⟨rfl, rfl, rfl, fun _ hmem => absurd hmem List.not_mem_nil⟩
    Batching.start
  have hlength : ∀ buffer ∈ buffers.map js, buffer.length ≤ buffer.bytes.length := by
    intro buffer hmem
    obtain ⟨v, hv, rfl⟩ := List.mem_map.1 hmem
    exact (hplain v hv).2.trans v.length_bytes.ge
  have hfits := (Batching.foldl_spec hlength Batching.start).1
  unfold writev batches
  rw [hadd]
  dsimp only
  unfold Loop.finish
  rw [h.size]
  split
  · rw [h.calls]
  · have hsegments := hfits.segments
    have hbatch : l.size = (l.batch.flatMap bytes).length := by rw [h.size, hfits.size, ← h.batch, flatMap_js]
    have hsubmit := submit_batch pool h.own (by rw [← List.length_map, h.batch]; omega) hbatch l.room.le
    unfold Loop.submit
    rw [← h.size, hsubmit, List.map_append, h.calls, List.map_singleton, Batch.bytes, ← h.batch, flatMap_js]

/-! ### Where the two agree -/

/-- Both methods submit `buffer.subarray(0, buffer.length)`. -/
def Agrees (pool : Pool) (v : View) : Prop :=
  ∃ content, v.subarray 0 v.length = .ok content ∧
    ∀ submission ∈ [v.write pool, writev pool [v]],
      submission.failure = none ∧ submission.calls.flatten = content.bytes

theorem agrees_iff : Agrees pool v ↔ v.byteOffset + v.length ≤ v.store.length ∧
    ∀ submission ∈ [v.write pool, writev pool [v]],
      submission.failure = none ∧ submission.calls.flatten = v.part 0 v.length := by
  have hsubarray : v.subarray 0 v.length = v.fastBuffer v.byteOffset v.length := by
    unfold subarray
    rw [Nat.zero_min, Nat.min_self]
    rfl
  unfold Agrees
  rw [hsubarray]
  unfold fastBuffer
  by_cases hcontent : v.byteOffset + v.length ≤ v.store.length
  · rw [dif_pos hcontent]
    constructor
    · rintro ⟨content, hok, h⟩
      obtain rfl := Except.ok.inj hok
      exact ⟨hcontent, h⟩
    · rintro ⟨-, h⟩
      exact ⟨_, rfl, h⟩
  · rw [dif_neg hcontent]
    constructor
    · rintro ⟨_, hok, -⟩
      cases hok
    · rintro ⟨h, -⟩
      exact absurd h hcontent

/-- The buffer says what it is, or nothing, or its property goes with one path for both and the memory has the bytes. -/
def Harmless (poolSize : ℕ) (v : View) : Prop :=
  v.length = v.size ∨ v.length = 0 ∨
    (chunkSize < v.length ∧ v.byteOffset + v.length ≤ v.store.length ∧
      ¬ (v.shared = true ∧ v.size = chunkSize ∧ v.length < poolSize / 2))

theorem length_part (hcontent : v.byteOffset + v.length ≤ v.store.length) : (v.part 0 v.length).length = v.length := by
  unfold part
  rw [List.length_take, List.length_drop]
  omega

theorem write_plain (h : v.length = v.size) (hsmall : v.length ≤ chunkSize) (hsome : v.length ≠ 0) :
    v.write pool = ⟨[v.part 0 v.length], none⟩ := by
  obtain ⟨w, hlocal, hbytes, hsize⟩ := localBuffer_bytes pool hsome fun _ => .inl h
  have hwrite : (v.localBuffer pool >>= nativeWrite) = .ok w.bytes := by
    rw [hlocal]
    exact if_pos (by omega)
  unfold write
  rw [if_neg (by omega), if_neg hsome, hwrite, hbytes, h]
  rfl

/-- A view taken as it is, whose copy is longer than a transfer. -/
theorem writev_refused (hshared : v.shared = true) (hsize : v.size = chunkSize) (hlarge : chunkSize < v.length)
    (hshort : v.length < pool.poolSize / 2) : (writev pool [v]).failure = some .invalidTransferSize := by
  have hlocal : v.localBuffer pool =
      .ok (ofBuffer (v.bytes ++ (List.range' v.size (v.length - v.size)).map pool.memory)) := by
    unfold localBuffer copy
    rw [if_pos hshared, if_neg (by omega), if_pos hshort, if_pos (by omega)]
  have hcopied : (v.bytes ++ (List.range' v.size (v.length - v.size)).map pool.memory).length = v.length := by
    rw [List.length_append, List.length_map, List.length_range', v.length_bytes]
    omega
  have hsubmit : submit pool [v] chunkSize = .error .invalidTransferSize := by
    show (v.localBuffer pool >>= nativeWrite) = _
    rw [hlocal]
    exact if_neg (by show ¬ (List.length _ ≤ chunkSize); omega)
  have hpush (hroom : chunkSize ≤ chunkSize - ({} : Loop).size) :
      Loop.push pool {} v 0 chunkSize hroom = .error ⟨[], some .invalidTransferSize⟩ := by
    unfold Loop.push segment
    rw [if_pos ⟨rfl, hsize.symm⟩]
    dsimp only
    rw [dif_pos (.inl (Nat.zero_add _)), Nat.zero_add, List.nil_append]
    unfold Loop.submit
    rw [hsubmit]
  have hadd : Loop.add pool {} v 0 = .error ⟨[], some .invalidTransferSize⟩ := by
    have hcount : min (v.length - 0) (chunkSize - ({} : Loop).size) = chunkSize := by
      show min (v.length - 0) (chunkSize - 0) = chunkSize
      omega
    rw [Loop.add, dif_pos (by omega)]
    dsimp only
    simp only [hcount, hpush]
  unfold writev
  rw [List.foldlM_cons, hadd]
  rfl

theorem agrees_of_harmless (h : v.Harmless pool.poolSize) : Agrees pool v := by
  rw [agrees_iff]
  have hcontent : v.byteOffset + v.length ≤ v.store.length := by
    have := v.within
    rcases h with h | h | ⟨-, h, -⟩ <;> omega
  have hvectored := writev_content pool hcontent <| by
    intro hwhole hshared
    rcases h with h | h | ⟨hlarge, -, hno⟩
    · exact .inl h
    · exact .inl (by omega)
    · refine .inr (Nat.le_of_not_lt fun hlt => hno ⟨hshared, ?_, hlt⟩)
      rw [hwhole, Nat.min_eq_right hlarge.le]
  refine ⟨hcontent, fun submission hmem => ?_⟩
  have hscalar : (v.write pool).failure = none ∧ (v.write pool).calls.flatten = v.part 0 v.length := by
    by_cases hlarge : chunkSize < v.length
    · unfold write
      rwa [if_pos hlarge]
    by_cases hsome : v.length = 0
    · unfold write
      rw [if_neg hlarge, if_pos hsome, hsome]
      exact ⟨rfl, rfl⟩
    · have hplain : v.length = v.size := by
        rcases h with h | h | ⟨h, -, -⟩
        · exact h
        · exact absurd h hsome
        · exact absurd h hlarge
      rw [write_plain hplain (by omega) hsome]
      exact ⟨rfl, List.flatten_singleton⟩
  rcases List.mem_cons.1 hmem with rfl | hmem
  · exact hscalar
  · rw [List.mem_singleton.1 hmem]
    exact hvectored

/-- A scalar write that succeeds hands over the bytes of the local buffer. -/
theorem write_local (hsmall : v.length ≤ chunkSize) (hsome : v.length ≠ 0) (hok : (v.write pool).failure = none) :
    ∃ w, v.localBuffer pool = .ok w ∧ (v.write pool).calls.flatten = w.bytes := by
  unfold write at hok ⊢
  rw [if_neg (Nat.not_lt.2 hsmall), if_neg hsome] at hok ⊢
  cases hlocal : v.localBuffer pool with
  | error failure =>
    rw [hlocal] at hok
    cases hok
  | ok w =>
    rw [hlocal] at hok
    have hwrite : (Except.ok w >>= nativeWrite) = nativeWrite w := rfl
    rw [hwrite] at hok ⊢
    unfold nativeWrite at hok ⊢
    by_cases hsize : w.size ≤ chunkSize
    · rw [if_pos hsize]
      exact ⟨w, rfl, List.flatten_singleton⟩
    · rw [if_neg hsize] at hok
      cases hok

/-- Memory that holds none of these bytes. -/
def differing (data : Buffer) (i : ℕ) : UInt8 := data.getD i 0 + 1

/-- **A scalar write** of a buffer that does not say what it is hands over other bytes, whatever the property says. -/
theorem write_differs (poolSize : ℕ) (hcontent : v.byteOffset + v.length ≤ v.store.length) (hne : v.length ≠ v.size)
    (hsmall : v.length ≤ chunkSize) (hsome : v.length ≠ 0)
    (h : ∀ memory, (v.write ⟨poolSize, memory⟩).failure = none ∧
      (v.write ⟨poolSize, memory⟩).calls.flatten = v.part 0 v.length) : False := by
  have hlength := length_part hcontent
  obtain ⟨hok, hcalls⟩ := h (differing (v.part 0 v.length))
  obtain ⟨w, hlocal, hbytes⟩ := write_local hsmall hsome hok
  have hpart : w.bytes = v.part 0 v.length := hbytes.symm.trans hcalls
  have hview : w.bytes ≠ v.bytes := by
    intro hview
    have := congrArg List.length (hview.symm.trans hpart)
    rw [hlength, v.length_bytes] at this
    exact hne this.symm
  unfold localBuffer at hlocal
  split at hlocal
  swap
  · exact hview (Except.ok.inj hlocal ▸ rfl)
  unfold copy at hlocal
  rw [if_neg hsome] at hlocal
  split at hlocal
  swap
  · obtain rfl := Except.ok.inj hlocal
    exact hview (ofBuffer_bytes _)
  split at hlocal
  swap
  · cases hlocal
  -- the rest of a short copy is whatever was in the pool
  obtain rfl := Except.ok.inj hlocal
  rename_i hfits
  rw [ofBuffer_bytes] at hpart
  obtain ⟨extra, hextra⟩ : ∃ extra, v.length - v.size = extra + 1 := ⟨v.length - v.size - 1, by omega⟩
  have hbyte := congrArg (fun data : Buffer => data.getD v.size 0) hpart
  dsimp only at hbyte
  rw [List.getD_eq_getElem?_getD, List.getElem?_append_right (v.length_bytes).le, v.length_bytes, Nat.sub_self, hextra,
    List.range'_succ, List.map_cons, List.getElem?_cons_zero] at hbyte
  exact absurd hbyte (by simp [differing])

/-- **Scalar and vectored writes of one buffer agree** exactly where its property does no harm. -/
theorem writes_agree_iff (poolSize : ℕ) (v : View) :
    (∀ memory, Agrees ⟨poolSize, memory⟩ v) ↔ v.Harmless poolSize := by
  constructor
  · intro h
    have hcontent := (agrees_iff.1 (h fun _ => 0)).1
    by_cases hne : v.length = v.size
    · exact .inl hne
    by_cases hsome : v.length = 0
    · exact .inr (.inl hsome)
    by_cases hlarge : chunkSize < v.length
    swap
    · refine (write_differs poolSize hcontent hne (by omega) hsome fun memory => ?_).elim
      exact (agrees_iff.1 (h memory)).2 _ List.mem_cons_self
    refine .inr (.inr ⟨hlarge, hcontent, fun ⟨hshared, hsize, hshort⟩ => ?_⟩)
    have hok := ((agrees_iff.1 (h fun _ => 0)).2 _ (List.mem_cons_of_mem _ List.mem_cons_self)).1
    rw [writev_refused hshared hsize hlarge hshort] at hok
    cases hok
  · intro h memory
    exact agrees_of_harmless h

/-- Three bytes, of which the property says two. -/
def threeBytes : View := ⟨[1, 2, 3], 0, 3, 2, false, by decide⟩

/-- A scalar write of them submits all three. -/
theorem writes_disagree :
    (write ⟨8192, fun _ => 0⟩ threeBytes).calls.flatten = [1, 2, 3] ∧
      (writev ⟨8192, fun _ => 0⟩ [threeBytes]).calls.flatten = [1, 2] ∧ ¬ Agrees ⟨8192, fun _ => 0⟩ threeBytes := by
  have hscalar : (write ⟨8192, fun _ => 0⟩ threeBytes).calls.flatten = [1, 2, 3] := by decide
  refine ⟨hscalar, (writev_content _ (by decide) (by decide)).2, fun h => ?_⟩
  have hcalls := ((agrees_iff.1 h).2 _ List.mem_cons_self).2
  rw [hscalar] at hcalls
  exact absurd hcalls (by decide)

end View

end NodeSerialport.Binding
