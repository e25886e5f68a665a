import NodeSerialport.Parsers.Bytes
import Mathlib.Algebra.Order.Ring.Int
import Mathlib.Data.List.Nodup
import Mathlib.Data.List.Perm.Subperm
import Mathlib.Logic.Function.Iterate
import Mathlib.Tactic.Common
/-!
# `BindingPort`

The record a JavaScript client keeps of one native port (`ts/lib/binding.ts`), and what it does between two calls of
the native handle: admit an operation, number it, take its answer, settle it, finish the connection.

* `NativeCall`, `Answer`, `NativeEvent` — the native handle as JavaScript sees it;
* `BindingPort` — the fields of the class;
* `BindingPort._id`, `_request`, `_finishClose`, `credit` — its methods;
* `Batching` — how `writev` cuts its buffers.
-/

namespace NodeSerialport.Binding

open Parsers (Buffer)

def chunkSize : ℕ := 64 * 1024
def readSlots : ℕ := 32

/-! ### Errors -/

/-- A `BindingsError`, or any other `Error`, as far as the library looks at it. -/
structure SerialError where
  message : String
  canceled : Bool := false
  disconnected : Bool := false
  code : Option String := none
  errno : Option ℤ := none
  path : Option String := none
  deriving DecidableEq, Repr

/-- `canceled()`. -/
def canceledError : SerialError := { message := "Port is closed", canceled := true }

/-- What a promise settles with. -/
abbrev Settlement (α : Type) := Except SerialError α

/-! ### The native handle -/

/-- A JavaScript `Buffer`: the bytes of its view, which N-API sees, and its `length` property, which may shadow their
number. -/
structure JsBuffer where
  bytes : Buffer
  length : ℕ
  deriving DecidableEq, Repr

def JsBuffer.ofBytes (bytes : Buffer) : JsBuffer := ⟨bytes, bytes.length⟩

/-- `buffer.subarray(start, stop)`. -/
def JsBuffer.subarray (b : JsBuffer) (start stop : ℕ) : JsBuffer := .ofBytes (Buffer.subarray b.bytes start stop)

inductive ControlOperation where
  | update | set | get | getBaudRate | flush | drain
  deriving DecidableEq, Repr

inductive EventKind where
  | opened | closed | read | ok | error
  deriving DecidableEq, Repr

structure NativeEvent where
  kind : EventKind
  id : ℕ
  data : Option Buffer := none
  message : Option String := none
  code : Option String := none
  errno : Option ℤ := none
  cts : Option Bool := none
  dsr : Option Bool := none
  dcd : Option Bool := none
  baudRate : Option ℕ := none
  deriving DecidableEq, Repr

/-- A call of the native handle that may be refused.  Only the bytes of a buffer reach it. -/
inductive NativeCall where
  | read (id : ℕ) (length : ℤ)
  | readCredit (bytes slots : ℤ)
  | write (id : ℕ) (data : Buffer) (inline : Bool)
  | writev (id : ℕ) (data : List Buffer) (length : ℕ) (inline : Bool)
  | request (id : ℕ) (operation : ControlOperation) (value : ℕ)
  deriving DecidableEq, Repr

/-- How the native handle answers: it did all the work (`true`), it took the command, or it threw. -/
inductive Answer where
  | completed | queued | thrown (error : SerialError)
  deriving DecidableEq, Repr

/-- Only writes answer `true`. -/
def NativeCall.mayComplete : NativeCall → Bool
  | .write .. | .writev .. => true
  | _ => false

/-! ### Batches of a vectored write -/

structure Batch where
  segments : List JsBuffer
  size : ℕ
  deriving DecidableEq, Repr

/-- The loop of `writev`: the batches it has submitted, and the one it is filling, which always has room. -/
structure Batching where
  sent : List Batch := []
  segments : List JsBuffer := []
  size : ℕ := 0
  room : size < chunkSize := by decide

/-- The segment of `buffer` a batch takes at `offset`. -/
def JsBuffer.segment (b : JsBuffer) (offset count : ℕ) : JsBuffer :=
  if offset = 0 ∧ count = b.bytes.length then b else b.subarray offset (offset + count)

/-- Add a segment, and submit the batch once it is full. -/
def Batching.push (b : Batching) (segment : JsBuffer) (count : ℕ) (hcount : count ≤ chunkSize - b.size) : Batching :=
  let segments := b.segments ++ [segment]
  if h : b.size + count = chunkSize ∨ segments.length = 1024 then
    { sent := b.sent ++ [⟨segments, b.size + count⟩] }
  else
    { sent := b.sent, segments := segments, size := b.size + count, room := by have := b.room; omega }

/-- The inner loop of `writev`, over one buffer. -/
def Batching.add (b : Batching) (buffer : JsBuffer) (offset : ℕ) : Batching :=
  if h : offset < buffer.length then
    let count := min (buffer.length - offset) (chunkSize - b.size)
    have : 0 < count := by
      have := b.room
      exact Nat.lt_min.2 ⟨by omega, by omega⟩
    (b.push (buffer.segment offset count) count (Nat.min_le_right _ _)).add buffer (offset + count)
  else b
termination_by buffer.length - offset

/-- `writev`: the batches it submits, in order. -/
def batches (buffers : List JsBuffer) : List Batch :=
  let b : Batching := buffers.foldl (fun b buffer => b.add buffer 0) {}
  if b.size = 0 then b.sent else b.sent ++ [⟨b.segments, b.size⟩]

/-! ### The port -/

/-- What `_request` is asked for. -/
inductive Operation where
  | read (length : ℤ)
  | write (data : JsBuffer)
  | writev (data : List JsBuffer) (size : ℕ)
  | control (operation : ControlOperation) (value : ℕ)
  deriving DecidableEq, Repr

/-- `op !== 'read'`. -/
def Operation.ordered : Operation → Bool
  | .read _ => false
  | _ => true

/-- The native call of an operation. -/
def Operation.call (id : ℕ) (inline : Bool) : Operation → NativeCall
  | .read length => .read id length
  | .write data => .write id data.bytes inline
  | .writev data size => .writev id (data.map JsBuffer.bytes) size inline
  | .control operation value => .request id operation value

/-- A batch of one segment goes through `write`. -/
def Batch.operation (b : Batch) : Operation :=
  match b.segments with
  | [segment] => .write segment
  | segments => .writev segments b.size

/-- A record of `_pending`: the promise whose `resolve` and `reject` it holds. -/
structure Pending where
  promise : ℕ
  ordered : Bool
  deriving DecidableEq, Repr

/-- What an `await` waits for: a promise that is settled already, or one of the promises made so far. -/
inductive Awaited where
  | settled (result : Settlement (Option NativeEvent))
  | promise (index : ℕ)
  deriving Repr

/-- `RESOLVED`. -/
def Awaited.RESOLVED : Awaited := .settled (.ok none)

structure BindingPort where
  isOpen : Bool := false
  pending : List (ℕ × Pending) := []
  ordered : ℤ := 0
  nextId : ℕ := 1
  reading : Bool := false
  streaming : Bool := false
  readBytes : ℤ := 0
  readSlots : ℤ := 0
  writing : Bool := false
  closing : Bool := false
  finished : Bool := false
  failure : Option SerialError := none
  /-- Whether the promise `opened` was settled, and how. -/
  opened : Option (Settlement Unit) := none
  /-- Whether `_native` holds the handle. -/
  native : Bool := true
  writePromise : Option Awaited := none
  path : String := ""
  deriving Repr

namespace BindingPort

/-- One try of the loop of `_id`. -/
def successor (id : ℕ) : ℕ := if id = 0xffffffff then 1 else id + 1

/-- The loop of `_id`: the first id from `id` on that is not taken, in at most `fuel` further tries. -/
def freeId (taken : List ℕ) (id : ℕ) : ℕ → ℕ
  | 0 => id
  | fuel + 1 => if id ∈ taken then freeId taken (successor id) fuel else id

def ids (p : BindingPort) : List ℕ := p.pending.map Prod.fst

/-- `_id`.  Fewer ids are taken than there are, so the loop needs at most one try more than there are records. -/
def _id (p : BindingPort) : ℕ × BindingPort :=
  let id := freeId p.ids p.nextId p.ids.length
  (id, { p with nextId := successor id })

/-- Count an operation that is about to be submitted. -/
def count (p : BindingPort) (ordered : Bool) : BindingPort :=
  if ordered then { p with ordered := p.ordered + 1 } else p

/-- Number an operation, count it, and build its native call. -/
def reserve (p : BindingPort) (op : Operation) : NativeCall × BindingPort :=
  let port := p._id.2.count op.ordered
  (op.call p._id.1 (port.ordered == 1), port)

/-- `_request`, up to the call of the native handle. -/
def _request (p : BindingPort) (op : Operation) : Settlement (NativeCall × BindingPort) :=
  if !p.isOpen || p.closing then .error canceledError
  else if 64 ≤ p.pending.length then .error { message := "Too many pending serial operations" }
  else .ok (p.reserve op)

/-- Undo the count of an operation that leaves no record. -/
def release (p : BindingPort) (ordered : Bool) : BindingPort :=
  if ordered then { p with ordered := p.ordered - 1 } else p

/-- Record a queued operation. -/
def record (p : BindingPort) (id promise : ℕ) (ordered : Bool) : BindingPort :=
  { p with pending := p.pending ++ [(id, ⟨promise, ordered⟩)] }

/-- Take the record of an operation away. -/
def unrecord (p : BindingPort) (id : ℕ) (ordered : Bool) : BindingPort :=
  { p with pending := p.pending.eraseP (·.1 == id) }.release ordered

/-- `_nativeError`. -/
def _nativeError (p : BindingPort) (event : NativeEvent) : SerialError :=
  { message := match event.message with
      | none | some "" => "Serial operation failed"
      | some message => message
    code := event.code, errno := event.errno, path := some p.path }

/-- The reason `_finishClose` rejects with. -/
def closeReason (p : BindingPort) (error : Option SerialError) : SerialError :=
  let reason := if p.closing then canceledError else error.getD canceledError
  if !p.closing && p.isOpen then { reason with disconnected := true } else reason

/-- `_finishClose`, without its calls: the handle is kept where a stream still has to acknowledge the failure. -/
def _finishClose (p : BindingPort) (error : Option SerialError) : BindingPort :=
  { p with
    finished := true
    native := if !p.isOpen || p.closing then false else p.native
    opened := p.opened.or (some (.error (p.closeReason error)))
    pending := []
    ordered := 0 }

/-- The window `startReading` asks for. -/
def window (length : ℤ) : ℤ := max 1 (min length chunkSize)

/-- The credit `startReading` tops up with, if any. -/
def credit (p : BindingPort) (length : ℤ) : Option (ℤ × ℤ) :=
  if 2 * p.readBytes ≤ window length ∨ 2 * p.readSlots ≤ Binding.readSlots then
    let bytes := window length - p.readBytes
    let slots := (Binding.readSlots : ℤ) - p.readSlots
    if 0 < bytes ∧ 0 < slots then some (bytes, slots) else none
  else none

/-- Charge a buffer that is about to be passed on. -/
def debit (p : BindingPort) (data : Buffer) : BindingPort :=
  { p with readBytes := p.readBytes - data.length, readSlots := p.readSlots - 1 }

/-- Count the credit the native handle took. -/
def topUp (p : BindingPort) (bytes slots : ℤ) : BindingPort :=
  { p with readBytes := p.readBytes + bytes, readSlots := p.readSlots + slots }

/-! ### Credit -/

theorem window_pos (length : ℤ) : 1 ≤ window length := le_max_left _ _

theorem window_le (length : ℤ) : window length ≤ 65536 := by
  unfold window
  show max 1 (min length (65536 : ℤ)) ≤ 65536
  omega

theorem window_mono {length length' : ℤ} (h : length ≤ length') : window length ≤ window length' :=
  max_le_max_left _ (min_le_min_right _ h)

theorem credit_spec {p : BindingPort} {length bytes slots : ℤ} (h : p.credit length = some (bytes, slots)) :
    p.readBytes + bytes = window length ∧ p.readSlots + slots = 32 ∧ 0 < bytes ∧ 0 < slots := by
  unfold credit at h
  split at h
  · dsimp only at h
    split at h
    · rename_i hpos
      cases h
      refine ⟨by omega, ?_, hpos⟩
      show p.readSlots + ((32 : ℤ) - p.readSlots) = 32
      omega
    · cases h
  · cases h

theorem credit_none {p : BindingPort} {length : ℤ} (h : p.credit length = none) :
    window length < 2 * p.readBytes ∧ 32 < 2 * p.readSlots ∨ window length ≤ p.readBytes ∨ 32 ≤ p.readSlots := by
  have hslots : (Binding.readSlots : ℤ) = 32 := rfl
  unfold credit at h
  rw [hslots] at h
  split at h
  · dsimp only at h
    split at h
    · cases h
    · omega
  · omega

/-! ### Ids -/

/-- The ids of requests: 32 bits, and not zero. -/
def InRange (id : ℕ) : Prop := 0 < id ∧ id < 2 ^ 32

theorem successor_inRange {id : ℕ} (h : InRange id) : InRange (successor id) := by
  unfold InRange successor at *
  split <;> omega

theorem successor_iterate {id : ℕ} (h : InRange id) (i : ℕ) :
    successor^[i] id = (id - 1 + i) % (2 ^ 32 - 1) + 1 := by
  unfold InRange at h
  induction i with
  | zero => rw [Function.iterate_zero, id_eq, Nat.mod_eq_of_lt] <;> omega
  | succ i ih =>
    rw [Function.iterate_succ_apply', ih, successor]
    split <;> omega

theorem freeId_inRange {taken : List ℕ} {id : ℕ} (h : InRange id) (fuel : ℕ) : InRange (freeId taken id fuel) := by
  induction fuel generalizing id with
  | zero => exact h
  | succ fuel ih =>
    rw [freeId]
    split
    · exact ih (successor_inRange h)
    · exact h

/-- The loop stops at a free id, or has found every id it tried taken. -/
theorem freeId_free_or (taken : List ℕ) (id fuel : ℕ) :
    freeId taken id fuel ∉ taken ∨ ∀ i ≤ fuel, successor^[i] id ∈ taken := by
  induction fuel generalizing id with
  | zero =>
    by_cases h : id ∈ taken
    · right
      intro i hi
      rw [Nat.le_zero.1 hi]
      exact h
    · exact .inl h
  | succ fuel ih =>
    rw [freeId]
    split
    · rename_i h
      rcases ih (successor id) with hfree | hall
      · exact .inl hfree
      · right
        intro i hi
        cases i with
        | zero => exact h
        | succ i => exact hall i (Nat.le_of_succ_le_succ hi)
    · rename_i h
      exact .inl h

/-- **`_id` ends, at an id that is not in use.** -/
theorem _id_free {p : BindingPort} (h : InRange p.nextId) (hlen : p.pending.length < 2 ^ 32 - 1) :
    p._id.1 ∉ p.ids := by
  rcases freeId_free_or p.ids p.nextId p.ids.length with hfree | hall
  · exact hfree
  · -- one id more than there are records would be taken
    exfalso
    have hids : p.ids.length = p.pending.length := List.length_map _
    have hnodup : ((List.range (p.ids.length + 1)).map fun i => successor^[i] p.nextId).Nodup := by
      refine List.Nodup.map_on ?_ List.nodup_range
      intro i hi j hj hij
      rw [List.mem_range] at hi hj
      simp only [successor_iterate h] at hij
      have hi' : (p.nextId - 1 + i) % (2 ^ 32 - 1) = (p.nextId - 1 + j) % (2 ^ 32 - 1) := by omega
      unfold InRange at h
      omega
    have hsub : ((List.range (p.ids.length + 1)).map fun i => successor^[i] p.nextId) ⊆ p.ids := by
      intro id hid
      obtain ⟨i, hi, rfl⟩ := List.mem_map.1 hid
      exact hall i (by have := List.mem_range.1 hi; omega)
    have hle := (hnodup.subperm hsub).length_le
    rw [List.length_map, List.length_range] at hle
    omega

theorem _id_inRange {p : BindingPort} (h : InRange p.nextId) : InRange p._id.1 := freeId_inRange h _

theorem _id_nextId_inRange {p : BindingPort} (h : InRange p.nextId) : InRange p._id.2.nextId :=
  successor_inRange (_id_inRange h)

end BindingPort

end NodeSerialport.Binding
