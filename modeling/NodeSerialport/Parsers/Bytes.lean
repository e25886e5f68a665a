import Mathlib.Data.Int.Notation
import Mathlib.Data.List.Basic
import Mathlib.Order.Nat
import Mathlib.Tactic.Common

/-!
# Buffers and errors of the parsers

What the frame parsers share: Node's `Buffer` as a list of bytes, the check of an integer option, and the errors a
parser reports or throws.
-/

namespace NodeSerialport.Parsers

/-- A Node `Buffer`, as its bytes. -/
abbrev Buffer := List UInt8

/-- `buffer.subarray(start, end)`. -/
def Buffer.subarray (b : Buffer) (start stop : ℕ) : Buffer := (b.drop start).take (stop - start)

/-- `buffer.indexOf(value, offset)` for a byte; `none` is `-1`. -/
def Buffer.indexOf (b : Buffer) (value : UInt8) (offset : ℕ) : Option ℕ :=
  ((b.drop offset).findIdx? (· == value)).map (· + offset)

/-- `buffer.readUIntBE(offset, byteLength)`, within the buffer. -/
def Buffer.readUIntBE (b : Buffer) (offset byteLength : ℕ) : ℕ :=
  (b.subarray offset (offset + byteLength)).foldl (fun value byte => value * 256 + byte.toNat) 0

/-- `buffer.readUIntLE(offset, byteLength)`, within the buffer. -/
def Buffer.readUIntLE (b : Buffer) (offset byteLength : ℕ) : ℕ :=
  (b.subarray offset (offset + byteLength)).foldr (fun byte value => byte.toNat + 256 * value) 0

/-- `Number.MAX_SAFE_INTEGER`. -/
def maxSafeInteger : ℤ := 9007199254740991

/-- `integer`: an integral option within its bounds. -/
def integer (value : ℤ) (name : String) (min max : ℤ) : Except String ℤ :=
  if value.natAbs > maxSafeInteger ∨ value < min ∨ value > max then .error ("Invalid " ++ name) else .ok value

theorem integer_eq_ok {value v min max : ℤ} {name : String} (h : integer value name min max = .ok v) :
    v = value ∧ min ≤ v ∧ v ≤ max := by
  unfold integer at h
  split at h
  · cases h
  · obtain rfl := Except.ok.inj h
    omega

theorem bind_eq_ok {α β : Type} {x : Except String α} {f : α → Except String β} {r : β} (h : (x >>= f) = .ok r) :
    ∃ a, x = .ok a ∧ f a = .ok r := by
  cases x with
  | error e => cases h
  | ok a => exact ⟨a, rfl, h⟩

/-- How a parser ends a stream: the error it reports through the callback, or an exception it throws. -/
inductive ParserError where
  | frameTooLarge
  | thrown (message : String)
  deriving DecidableEq, Repr

def ParserError.message : ParserError → String
  | .frameTooLarge => "Frame exceeds maxFrameLength"
  | .thrown message => message

def ParserError.code : ParserError → Option String
  | .frameTooLarge => some "ERR_SERIALPORT_FRAME_TOO_LARGE"
  | .thrown _ => none

theorem Buffer.subarray_append {b : Buffer} {start stop : ℕ} (h : stop ≤ b.length) (c : Buffer) :
    Buffer.subarray (b ++ c) start stop = Buffer.subarray b start stop := by
  by_cases hs : start ≤ b.length
  · unfold Buffer.subarray
    rw [List.drop_append_of_le_length hs, List.take_append_of_le_length (by rw [List.length_drop]; omega)]
  · rw [Buffer.subarray, Buffer.subarray, show stop - start = 0 by omega, List.take_zero, List.take_zero]

theorem Buffer.subarray_take {b : Buffer} {start stop n : ℕ} (h : stop ≤ n) :
    Buffer.subarray (b.take n) start stop = Buffer.subarray b start stop := by
  unfold Buffer.subarray
  rw [List.drop_take, List.take_take, min_eq_left (by omega)]

/-- The option `maxFrameLength`, where it is given. -/
def checkMaxFrameLength : Option ℤ → Except String (Option ℕ)
  | none => .ok none
  | some value => do
    let value ← integer value "maxFrameLength" 0 maxSafeInteger
    return some value.toNat

end NodeSerialport.Parsers
