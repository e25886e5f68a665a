import Mathlib.Data.List.Basic
import Mathlib.Logic.Function.Basic
import NodeSerialport.Lib.Transform
import NodeSerialport.Parsers.ByteQueue

/-!
# SLIP: options, encoder, decoder

The two transforms of `slip.ts` with both of their paths.  Encoder and decoder each hold a table of 256 escape
codes; an entry `-1` is `none` here.

The encoder computes the size of its output first and fills a buffer of that size, whose bytes are arbitrary before
they are written (`allocUnsafe`); `SlipEncoder.transform_eq` says what it emits.
-/

namespace NodeSerialport.Parsers

open NodeSerialport.Lib

/-! ### Options -/

/-- The options of the constructors, numbers where they are given. -/
structure SlipOptions where
  START : Option ℤ := none
  ESC : Option ℤ := none
  END : Option ℤ := none
  ESC_START : Option ℤ := none
  ESC_END : Option ℤ := none
  ESC_ESC : Option ℤ := none
  bluetoothQuirk : Bool := false

/-- The options with their defaults filled in and their values checked. -/
structure SlipSettings where
  START : Option UInt8 := none
  ESC : UInt8 := 0xdb
  END : UInt8 := 0xc0
  ESC_START : Option UInt8 := none
  ESC_END : UInt8 := 0xdc
  ESC_ESC : UInt8 := 0xdd
  bluetoothQuirk : Bool := false
  deriving DecidableEq, Repr

/-- One code: an integer between 0 and 255. -/
def slipCode (value : ℤ) (name : String) : Except String UInt8 := do
  let value ← integer value name 0 255
  return UInt8.ofNat value.toNat

/-- A code that may be missing. -/
def slipCode? (value : Option ℤ) (name : String) : Except String (Option UInt8) :=
  match value with
  | none => .ok none
  | some value => (slipCode value name).map some

/-- `settings`: fill in the defaults, then check the codes in the order of the source. -/
def settings (options : SlipOptions) : Except String SlipSettings := do
  let START ← slipCode? options.START "START"
  let ESC ← slipCode (options.ESC.getD 0xdb) "ESC"
  let END ← slipCode (options.END.getD 0xc0) "END"
  let ESC_START ← slipCode? options.ESC_START "ESC_START"
  let ESC_END ← slipCode (options.ESC_END.getD 0xdc) "ESC_END"
  let ESC_ESC ← slipCode (options.ESC_ESC.getD 0xdd) "ESC_ESC"
  return { START, ESC, END, ESC_START, ESC_END, ESC_ESC, bluetoothQuirk := options.bluetoothQuirk }

/-- An `Int16Array(256)` filled with `-1`, then written to. -/
abbrev Codes := UInt8 → Option UInt8

/-- `codes[index] = value`. -/
def Codes.set (codes : Codes) (index value : UInt8) : Codes := Function.update codes index (some value)

/-! ### The encoder -/

structure SlipEncoder where
  codes : Codes
  options : SlipSettings

namespace SlipEncoder

def new (s : SlipSettings) : SlipEncoder where
  options := s
  codes :=
    let codes := (Codes.set (Codes.set (fun _ => none) s.ESC s.ESC_ESC) s.END s.ESC_END)
    match s.START, s.ESC_START with
    | some START, some ESC_START => codes.set START ESC_START
    | _, _ => codes

def create (options : SlipOptions) : Except String SlipEncoder := (settings options).map new

theorem create_eq_ok {options : SlipOptions} {e : SlipEncoder} :
    create options = .ok e ↔ ∃ s, settings options = .ok s ∧ new s = e := by
  unfold create
  cases settings options <;> simp [Except.map]

/-- Whether the chunk goes through the bulk copy: it is large and holds nothing to escape. -/
def plain (e : SlipEncoder) (chunk : Buffer) : Bool :=
  chunk.length ≥ 256 && (e.codes (chunk.getD 0 0)).isNone && (Buffer.indexOf chunk e.options.ESC 0).isNone &&
    (Buffer.indexOf chunk e.options.END 0).isNone &&
    match e.options.START, e.options.ESC_START with
    | some START, some _ => (Buffer.indexOf chunk START 0).isNone
    | _, _ => true

/-- The size of the output buffer, computed before it is filled. -/
def outputLength (e : SlipEncoder) (chunk : Buffer) : ℕ :=
  chunk.length + 1 + e.options.START.isSome.toNat + e.options.bluetoothQuirk.toNat +
    if e.plain chunk then 0 else chunk.countP fun byte => (e.codes byte).isSome

/-- What the byte loop writes for a byte. -/
def escape (e : SlipEncoder) (byte : UInt8) : Buffer :=
  match e.codes byte with
  | none => [byte]
  | some code => [e.options.ESC, code]

/-- The bytes written to the output buffer, one after the other. -/
def written (e : SlipEncoder) (chunk : Buffer) : Buffer :=
  (if e.options.bluetoothQuirk then [e.options.END] else []) ++ e.options.START.toList ++
    (if e.plain chunk then chunk else chunk.flatMap e.escape) ++ [e.options.END]

/-- A buffer of `length` bytes of uninitialised `memory`, filled from its start on: a write past the end is
dropped, and what is not written keeps its old value. -/
def fill (memory : ℕ → UInt8) (length : ℕ) (bytes : Buffer) : Buffer :=
  (List.range length).map fun i => bytes.getD i (memory i)

/-- `_transform`, with the memory that `allocUnsafe` happens to return. -/
def transform (memory : ℕ → UInt8) (e : SlipEncoder) (chunk : Buffer) : List Buffer :=
  if e.options.bluetoothQuirk && chunk.length = 0 then []
  else [fill memory (e.outputLength chunk) (e.written chunk)]

/-- The encoder as a transform stream; its state counts the buffers it has allocated. -/
def stream (e : SlipEncoder) (memory : ℕ → ℕ → UInt8) : Transform ℕ UInt8 Buffer ParserError where
  transform n chunk := ⟨n + 1, e.transform (memory n) chunk, none⟩
  flush n := ⟨n, [], none⟩

/-! ### What the encoder emits -/

/-- The encoding of a payload, byte by byte. -/
def encode (e : SlipEncoder) (payload : Buffer) : Buffer :=
  (if e.options.bluetoothQuirk then [e.options.END] else []) ++ e.options.START.toList ++
    payload.flatMap e.escape ++ [e.options.END]

theorem fill_of_length {memory : ℕ → UInt8} {length : ℕ} {bytes : Buffer} (h : bytes.length = length) :
    fill memory length bytes = bytes := by
  apply List.ext_getElem
  · simp [fill, h]
  · intro i h1 h2
    simp [fill, h2]

theorem indexOf_eq_none {b : Buffer} {value : UInt8} (h : (Buffer.indexOf b value 0).isNone = true) : value ∉ b := by
  simp only [Buffer.indexOf, List.drop_zero, Option.isNone_iff_eq_none, Option.map_eq_none_iff,
    List.findIdx?_eq_none_iff] at h
  intro hmem
  simpa using h value hmem

theorem new_codes_eq_none {s : SlipSettings} {byte : UInt8} (hESC : byte ≠ s.ESC) (hEND : byte ≠ s.END)
    (hSTART : ∀ START ESC_START, s.START = some START → s.ESC_START = some ESC_START → byte ≠ START) :
    (new s).codes byte = none := by
  cases h1 : s.START with
  | none => simp [new, h1, Codes.set, hESC, hEND]
  | some START =>
    cases h2 : s.ESC_START with
    | none => simp [new, h1, h2, Codes.set, hESC, hEND]
    | some ESC_START => simp [new, h1, h2, Codes.set, hESC, hEND, hSTART START ESC_START h1 h2]

/-- A chunk that goes through the bulk copy has nothing to escape. -/
theorem escape_of_plain {s : SlipSettings} {chunk : Buffer} (h : (new s).plain chunk = true) :
    chunk.flatMap (new s).escape = chunk ∧ chunk.countP (fun byte => ((new s).codes byte).isSome) = 0 := by
  have hnone : ∀ byte ∈ chunk, (new s).codes byte = none := by
    intro byte hbyte
    simp only [plain, Bool.and_eq_true] at h
    obtain ⟨⟨⟨⟨-, -⟩, hESC⟩, hEND⟩, hSTART⟩ := h
    refine new_codes_eq_none ?_ ?_ ?_
    · rintro rfl
      exact indexOf_eq_none hESC hbyte
    · rintro rfl
      exact indexOf_eq_none hEND hbyte
    · intro START ESC_START h1 h2
      change (match s.START, s.ESC_START with
        | some START, some _ => (Buffer.indexOf chunk START 0).isNone
        | _, _ => true) = true at hSTART
      rw [h1, h2] at hSTART
      rintro rfl
      exact indexOf_eq_none hSTART hbyte
  constructor
  · have hesc : ∀ byte ∈ chunk, (new s).escape byte = [byte] := by
      intro byte hbyte
      simp [escape, hnone byte hbyte]
    rw [List.flatMap_congr hesc]
    simp
  · rw [List.countP_eq_zero]
    intro byte hbyte
    simp [hnone byte hbyte]

theorem escape_length (e : SlipEncoder) (byte : UInt8) :
    (e.escape byte).length = 1 + (e.codes byte).isSome.toNat := by
  unfold escape
  cases e.codes byte <;> rfl

theorem flatMap_escape_length (e : SlipEncoder) (chunk : Buffer) :
    (chunk.flatMap e.escape).length = chunk.length + chunk.countP fun byte => (e.codes byte).isSome := by
  induction chunk with
  | nil => rfl
  | cons byte chunk ih =>
    rw [List.flatMap_cons, List.length_append, ih, escape_length, List.length_cons, List.countP_cons]
    cases (e.codes byte).isSome <;> simp <;> omega

theorem written_eq (s : SlipSettings) (chunk : Buffer) : (new s).written chunk = (new s).encode chunk := by
  unfold written encode
  by_cases h : (new s).plain chunk = true
  · rw [if_pos h, (escape_of_plain h).1]
  · rw [if_neg h]

theorem written_length (s : SlipSettings) (chunk : Buffer) :
    ((new s).written chunk).length = (new s).outputLength chunk := by
  have hcount : (if (new s).plain chunk = true then 0
      else chunk.countP fun byte => ((new s).codes byte).isSome) =
      chunk.countP fun byte => ((new s).codes byte).isSome := by
    by_cases h : (new s).plain chunk = true
    · rw [if_pos h, (escape_of_plain h).2]
    · rw [if_neg h]
  rw [written_eq]
  unfold encode outputLength
  rw [hcount]
  simp only [List.length_append, flatMap_escape_length, List.length_singleton]
  cases (new s).options.bluetoothQuirk <;> cases (new s).options.START <;> simp <;> omega

/-- **The encoder emits the encoding**, whatever path it takes and whatever memory it is given. -/
theorem transform_eq (s : SlipSettings) (memory : ℕ → UInt8) (chunk : Buffer) :
    transform memory (new s) chunk =
      if s.bluetoothQuirk && chunk.length = 0 then [] else [(new s).encode chunk] := by
  unfold transform
  rw [fill_of_length (written_length s chunk), written_eq]
  rfl

end SlipEncoder

/-! ### The decoder -/

structure SlipDecoder where
  bytes : ByteQueue := {}
  codes : Codes
  options : SlipSettings
  started : Bool := false
  escaped : Bool := false
  maxFrameLength : Option ℕ := none

namespace SlipDecoder

def new (s : SlipSettings) (maxFrameLength : Option ℕ) : SlipDecoder where
  options := s
  maxFrameLength := maxFrameLength
  codes :=
    let codes := (Codes.set (Codes.set (fun _ => none) s.ESC_END s.END) s.ESC_ESC s.ESC)
    match s.START, s.ESC_START with
    | some START, some ESC_START => codes.set ESC_START START
    | _, _ => codes

def create (options : SlipOptions) (maxFrameLength : Option ℤ := none) : Except String SlipDecoder := do
  let s ← settings options
  let maxFrameLength ← checkMaxFrameLength maxFrameLength
  return new s maxFrameLength

theorem create_eq_ok {options : SlipOptions} {maxFrameLength : Option ℤ} {d : SlipDecoder} :
    create options maxFrameLength = .ok d ↔
      ∃ s limit, settings options = .ok s ∧ checkMaxFrameLength maxFrameLength = .ok limit ∧ new s limit = d := by
  constructor
  · intro h
    obtain ⟨s, hs, h⟩ := bind_eq_ok h
    obtain ⟨limit, hlimit, h⟩ := bind_eq_ok h
    exact ⟨s, limit, hs, hlimit, Except.ok.inj h⟩
  · rintro ⟨s, limit, hs, hlimit, rfl⟩
    unfold create
    rw [hs, hlimit]
    rfl

/-- `#append`; `none` where the source returns `false`. -/
def append (d : SlipDecoder) (buffer : Buffer) : Option SlipDecoder :=
  match d.maxFrameLength with
  | some limit =>
    if d.bytes.length + buffer.length > limit then none else some { d with bytes := d.bytes.append buffer }
  | none => some { d with bytes := d.bytes.append buffer }

/-- `#overflow`. -/
def overflow (d : SlipDecoder) : Outcome SlipDecoder Buffer ParserError :=
  ⟨{ d with bytes := d.bytes.clear }, [], some .frameTooLarge⟩

/-- The end of a frame: the bytes of this chunk that belong to it join the queue, and the queue is pushed. -/
def emit (d : SlipDecoder) (buffer : Buffer) : Except ParserError (Buffer × SlipDecoder) :=
  match d.append buffer with
  | none => .error .frameTooLarge
  | some d =>
    match d.bytes.take d.bytes.length with
    | .error message => .error (.thrown message)
    | .ok (frame, bytes) => .ok (frame, { d with bytes := bytes })

/-- What a call does once `emit` has failed. -/
def fail (d : SlipDecoder) : ParserError → Outcome SlipDecoder Buffer ParserError
  | .frameTooLarge => d.overflow
  | .thrown message => ⟨d, [], some (.thrown message)⟩

/-- The end of a call: the bytes after the last frame join the queue. -/
def finish (d : SlipDecoder) (buffer : Buffer) : Outcome SlipDecoder Buffer ParserError :=
  match d.append buffer with
  | none => d.overflow
  | some d => ⟨d, [], none⟩

/-- The outcome of a call that has pushed `frame` already. -/
def pushed (frame : Buffer) (rest : Outcome SlipDecoder Buffer ParserError) :
    Outcome SlipDecoder Buffer ParserError :=
  ⟨rest.state, frame :: rest.pushed, rest.error⟩

theorem indexOf_bounds {b : Buffer} {value : UInt8} {offset i : ℕ} (h : Buffer.indexOf b value offset = some i) :
    offset ≤ i ∧ i < b.length := by
  simp only [Buffer.indexOf, Option.map_eq_some_iff] at h
  obtain ⟨k, hk, rfl⟩ := h
  obtain ⟨hk, -⟩ := List.findIdx?_eq_some_iff_getElem.1 hk
  rw [List.length_drop] at hk
  omega

/-- The bulk path from `offset` on: frames are found by searching for `END`. -/
def bulkLoop (d : SlipDecoder) (chunk : Buffer) (offset : ℕ) : Outcome SlipDecoder Buffer ParserError :=
  match _h : Buffer.indexOf chunk d.options.END offset with
  | none => d.finish (chunk.drop offset)
  | some stop =>
    match d.emit (Buffer.subarray chunk offset stop) with
    | .error e => d.fail e
    | .ok (frame, d) => pushed frame (bulkLoop d chunk (stop + 1))
termination_by chunk.length - offset
decreasing_by
  have := indexOf_bounds _h
  omega

/-- The byte loop: `decoded` is what has been decoded from this chunk, and the current frame begins at
`frameStart`. -/
def byteLoop (d : SlipDecoder) (decoded : Buffer) (frameStart : ℕ) :
    Buffer → Outcome SlipDecoder Buffer ParserError
  | [] => d.finish (decoded.drop frameStart)
  | byte :: rest =>
    let d := if d.options.START = none then { d with started := true } else d
    if d.escaped then
      let d := { d with escaped := false }
      match d.codes byte with
      | some code => byteLoop d (if d.started then decoded ++ [code] else decoded) frameStart rest
      | none =>
        -- an invalid escape ends the frame, and its byte starts the next one
        match d.emit (decoded.drop frameStart) with
        | .error e => d.fail e
        | .ok (frame, d) =>
          pushed frame (byteLoop d (if d.started then decoded ++ [byte] else decoded) decoded.length rest)
    else if d.options.START = some byte then byteLoop { d with started := true } decoded frameStart rest
    else if byte = d.options.ESC then byteLoop { d with escaped := true } decoded frameStart rest
    else if byte = d.options.END then
      match d.emit (decoded.drop frameStart) with
      | .error e => d.fail e
      | .ok (frame, d) => pushed frame (byteLoop { d with started := false } decoded decoded.length rest)
    else byteLoop d (if d.started then decoded ++ [byte] else decoded) frameStart rest

/-- `_transform`: large chunks without an escape take the bulk path where no start marker is in use. -/
def transform (d : SlipDecoder) (chunk : Buffer) : Outcome SlipDecoder Buffer ParserError :=
  if chunk.length ≥ 256 ∧ d.options.START = none ∧ d.escaped = false ∧
      Buffer.indexOf chunk d.options.ESC 0 = none then
    d.bulkLoop chunk 0
  else d.byteLoop [] 0 chunk

def flush (d : SlipDecoder) : Outcome SlipDecoder Buffer ParserError :=
  match d.bytes.take d.bytes.length with
  | .error message => ⟨d, [], some (.thrown message)⟩
  | .ok (frame, bytes) => ⟨{ d with bytes := bytes }, [frame], none⟩

/-- The decoder as a transform stream. -/
def stream : Transform SlipDecoder UInt8 Buffer ParserError where
  transform := transform
  flush := flush

end SlipDecoder

end NodeSerialport.Parsers
