import NodeSerialport.Lib.Cutter
import NodeSerialport.Lib.Transform
import NodeSerialport.Parsers.ByteQueue
import Mathlib.Algebra.Order.Ring.Int

/-!
# `PacketLengthParser`

A packet starts with a delimiter and carries its length in a field of the header.  The parser searches the delimiter
byte by byte, remembers that it found one, then remembers the length of the packet, and pushes the packet once it has
arrived.

* `PacketFormat.cutter` — the same decisions as a function of the bytes that have arrived;
* `Holds p y` — the parser has decided nothing that the bytes `y` do not decide;
* `transformLoop_spec`: a call of `_transform` pushes what its bytes are cut into;
* `packet_length_recovers`: a concatenation of packets is recovered from any of its cuts into chunks.
-/

namespace NodeSerialport.Parsers

open NodeSerialport.Lib

/-- The options of the constructor; `delimiter` is a value or an array of values. -/
structure PacketLengthOptions where
  delimiter : ℤ ⊕ List ℤ := .inl 0xaa
  delimiterBytes : ℤ := 1
  packetOverhead : ℤ := 2
  lengthBytes : ℤ := 1
  lengthOffset : ℤ := 1
  maxLen : ℤ := 255

/-- The settings of a parser. -/
structure PacketFormat where
  delimiters : List ℤ
  delimiterBytes : ℕ
  lengthBytes : ℕ
  lengthOffset : ℕ
  packetOverhead : ℕ
  maxLen : ℕ
  delimiterBytes_pos : 0 < delimiterBytes

structure PacketLengthParser where
  format : PacketFormat
  bytes : ByteQueue := {}
  started : Bool := false
  /-- The length of the packet; zero stands for unknown. -/
  length : ℕ := 0

/-- The delimiters, as a set keeps them. -/
def PacketLengthOptions.delimiters (options : PacketLengthOptions) : List ℤ :=
  match options.delimiter with
  | .inl value => [value]
  | .inr values => values.eraseDups

namespace PacketFormat

/-- The checks of the constructor, in its order. -/
def create (options : PacketLengthOptions) : Except String PacketFormat :=
  match h : integer options.delimiterBytes "delimiterBytes" 1 6 with
  | .error message => .error message
  | .ok delimiterBytes => do
    let lengthBytes ← integer options.lengthBytes "lengthBytes" 1 6
    let lengthOffset ← integer options.lengthOffset "lengthOffset" 0 maxSafeInteger
    let packetOverhead ← integer options.packetOverhead "packetOverhead" 0 maxSafeInteger
    let maxLen ← integer options.maxLen "maxLen" 0 (maxSafeInteger - packetOverhead)
    if options.delimiters = [] then throw "delimiter must not be empty"
    options.delimiters.forM fun value =>
      discard (integer value "delimiter" 0 (2 ^ (delimiterBytes.toNat * 8) - 1))
    return {
      delimiters := options.delimiters
      delimiterBytes := delimiterBytes.toNat
      lengthBytes := lengthBytes.toNat
      lengthOffset := lengthOffset.toNat
      packetOverhead := packetOverhead.toNat
      maxLen := maxLen.toNat
      delimiterBytes_pos := by have := integer_eq_ok h; omega }

theorem create_eq_ok {options : PacketLengthOptions} {f : PacketFormat} (h : create options = .ok f) :
    f.delimiters = options.delimiters ∧ (f.delimiterBytes : ℤ) = options.delimiterBytes ∧
      (f.lengthBytes : ℤ) = options.lengthBytes ∧ (f.lengthOffset : ℤ) = options.lengthOffset ∧
      (f.packetOverhead : ℤ) = options.packetOverhead ∧ (f.maxLen : ℤ) = options.maxLen := by
  unfold create at h
  split at h
  · cases h
  · rename_i delimiterBytes h1
    obtain ⟨lengthBytes, h2, h⟩ := bind_eq_ok h
    obtain ⟨lengthOffset, h3, h⟩ := bind_eq_ok h
    obtain ⟨packetOverhead, h4, h⟩ := bind_eq_ok h
    obtain ⟨maxLen, h5, h⟩ := bind_eq_ok h
    dsimp only at h
    split at h
    · cases h
    obtain ⟨-, -, h⟩ := bind_eq_ok h
    obtain rfl := Except.ok.inj h
    have i1 := integer_eq_ok h1
    have i2 := integer_eq_ok h2
    have i3 := integer_eq_ok h3
    have i4 := integer_eq_ok h4
    have i5 := integer_eq_ok h5
    refine ⟨rfl, ?_⟩
    simp only
    omega

/-- `delimiters.has(buffer.readUIntBE(0, delimiterBytes))`. -/
def has (f : PacketFormat) (buffer : Buffer) : Bool :=
  f.delimiters.contains (buffer.readUIntBE 0 f.delimiterBytes : ℤ)

def headerLength (f : PacketFormat) : ℕ := max (f.delimiterBytes + 1) (f.lengthOffset + f.lengthBytes)

/-- The length of the packet with the given header; an invalid one is emitted early. -/
def packetLength (f : PacketFormat) (header : Buffer) : ℕ :=
  let payload := header.readUIntLE f.lengthOffset f.lengthBytes
  if payload > f.maxLen then f.headerLength else max f.headerLength (payload + f.packetOverhead)

end PacketFormat

namespace PacketLengthParser

def new (format : PacketFormat) : PacketLengthParser := { format }

def create (options : PacketLengthOptions) : Except String PacketLengthParser :=
  (PacketFormat.create options).map new

/-- The search for a delimiter: whether one was found, and the queue behind the bytes that were discarded. -/
def scan (f : PacketFormat) (bytes : ByteQueue) : Except String (Bool × ByteQueue) :=
  if bytes.length ≥ f.delimiterBytes then
    match bytes.peek f.delimiterBytes with
    | .error message => .error message
    | .ok front =>
      if f.has front then .ok (true, bytes)
      else
        match _h : bytes.discard 1 with
        | .error message => .error message
        | .ok bytes => scan f bytes
  else .ok (false, bytes)
termination_by bytes.length
decreasing_by
  have h1 := ByteQueue.discard_length _h
  have h2 := f.delimiterBytes_pos
  omega

/-- The first stage of a turn: search the delimiter, unless one was found. -/
def start (p : PacketLengthParser) : Except String PacketLengthParser :=
  if p.started then return p
  else do
    let (started, bytes) ← scan p.format p.bytes
    return { p with started, bytes }

/-- The second stage: read the length, unless it is known or the header has not arrived. -/
def header (p : PacketLengthParser) : Except String PacketLengthParser :=
  if p.length ≠ 0 then return p
  else if p.bytes.length < p.format.headerLength then return p
  else do
    let header ← p.bytes.peek p.format.headerLength
    return { p with length := p.format.packetLength header }

/-- The third stage: the packet, if it has arrived. -/
def body (p : PacketLengthParser) : Except String (Option Buffer × PacketLengthParser) :=
  if p.length = 0 ∨ p.bytes.length < p.length then return (none, p)
  else do
    let (packet, bytes) ← p.bytes.take p.length
    return (some packet, { p with bytes, length := 0, started := false })

/-- One turn of the loop of `_transform`: the packet it pushes, or `none` where it leaves the loop. -/
def turn (p : PacketLengthParser) : Except String (Option Buffer × PacketLengthParser) := do
  let p ← p.start
  if !p.started then return (none, p)
  let p ← p.header
  p.body

theorem scan_length_le {f : PacketFormat} {q q' : ByteQueue} {found : Bool} (h : scan f q = .ok (found, q')) :
    q'.length ≤ q.length := by
  induction hn : q.length using Nat.strong_induction_on generalizing q with
  | _ n ih =>
    rw [scan] at h
    split at h
    · rename_i hlen
      split at h
      · cases h
      · split at h
        · obtain ⟨-, rfl⟩ := Prod.mk.inj (Except.ok.inj h)
          omega
        · split at h
          · cases h
          · rename_i q₁ hd
            have h1 := ByteQueue.discard_length hd
            have h2 := f.delimiterBytes_pos
            have h3 := ih q₁.length (by omega) h rfl
            omega
    · obtain ⟨-, rfl⟩ := Prod.mk.inj (Except.ok.inj h)
      omega

theorem start_length_le {p p' : PacketLengthParser} (h : p.start = .ok p') : p'.bytes.length ≤ p.bytes.length := by
  unfold start at h
  split at h
  · obtain rfl := Except.ok.inj h
    exact le_rfl
  · cases hs : scan p.format p.bytes with
    | error e => rw [hs] at h; cases h
    | ok r =>
      rw [hs] at h
      obtain rfl := Except.ok.inj h
      exact scan_length_le hs

theorem header_bytes {p p' : PacketLengthParser} (h : p.header = .ok p') : p'.bytes = p.bytes := by
  unfold header at h
  split at h
  · obtain rfl := Except.ok.inj h
    rfl
  · split at h
    · obtain rfl := Except.ok.inj h
      rfl
    · cases hk : p.bytes.peek p.format.headerLength with
      | error e => rw [hk] at h; cases h
      | ok b =>
        rw [hk] at h
        obtain rfl := Except.ok.inj h
        rfl

theorem body_length_lt {p p' : PacketLengthParser} {packet : Buffer} (h : p.body = .ok (some packet, p')) :
    p'.bytes.length < p.bytes.length := by
  unfold body at h
  split at h
  · cases h
  · rename_i hlen
    cases ht : p.bytes.take p.length with
    | error e => rw [ht] at h; cases h
    | ok r =>
      obtain ⟨b, q⟩ := r
      rw [ht] at h
      obtain ⟨-, rfl⟩ := Prod.mk.inj (Except.ok.inj h)
      have := ByteQueue.take_length ht
      simp only
      omega

theorem turn_length_lt {p p' : PacketLengthParser} {packet : Buffer} (h : p.turn = .ok (some packet, p')) :
    p'.bytes.length < p.bytes.length := by
  unfold turn at h
  cases hs : p.start with
  | error e => rw [hs] at h; cases h
  | ok p₁ =>
    have h1 := start_length_le hs
    rw [hs] at h
    change (if !p₁.started then _ else p₁.header >>= body) = _ at h
    split at h
    · cases h
    · cases hh : p₁.header with
      | error e => rw [hh] at h; cases h
      | ok p₂ =>
        rw [hh] at h
        have h2 := body_length_lt (p := p₂) h
        rw [header_bytes hh] at h2
        omega

/-- The loop of `_transform`. -/
def transformLoop (p : PacketLengthParser) : Outcome PacketLengthParser Buffer ParserError :=
  match _h : p.turn with
  | .error message => ⟨p, [], some (.thrown message)⟩
  | .ok (none, p) => ⟨p, [], none⟩
  | .ok (some packet, p) =>
    let rest := transformLoop p
    ⟨rest.state, packet :: rest.pushed, rest.error⟩
termination_by p.bytes.length
decreasing_by exact turn_length_lt _h

def transform (p : PacketLengthParser) (chunk : Buffer) : Outcome PacketLengthParser Buffer ParserError :=
  transformLoop { p with bytes := p.bytes.append chunk }

def flush (p : PacketLengthParser) : Outcome PacketLengthParser Buffer ParserError :=
  match p.bytes.take p.bytes.length with
  | .error message => ⟨p, [], some (.thrown message)⟩
  | .ok (rest, bytes) => ⟨{ p with bytes }, [rest], none⟩

/-- The parser as a transform stream. -/
def stream : Transform PacketLengthParser UInt8 Buffer ParserError where
  transform := transform
  flush := flush

end PacketLengthParser

/-! ### The decisions as a function of the bytes -/

namespace PacketFormat

theorem has_append (f : PacketFormat) {x : Buffer} (h : f.delimiterBytes ≤ x.length) (z : Buffer) :
    f.has (x ++ z) = f.has x := by
  have hstop : 0 + f.delimiterBytes ≤ x.length := by omega
  rw [has, Buffer.readUIntBE, Buffer.subarray_append hstop, has, Buffer.readUIntBE]

theorem has_take (f : PacketFormat) (x : Buffer) : f.has (x.take f.delimiterBytes) = f.has x := by
  have hstop : 0 + f.delimiterBytes ≤ f.delimiterBytes := by omega
  rw [has, Buffer.readUIntBE, Buffer.subarray_take hstop, has, Buffer.readUIntBE]

theorem lengthField_le (f : PacketFormat) : f.lengthOffset + f.lengthBytes ≤ f.headerLength := le_max_right _ _

theorem packetLength_append (f : PacketFormat) {x : Buffer} (h : f.headerLength ≤ x.length) (z : Buffer) :
    f.packetLength (x ++ z) = f.packetLength x := by
  have hread : (x ++ z).readUIntLE f.lengthOffset f.lengthBytes = x.readUIntLE f.lengthOffset f.lengthBytes := by
    rw [Buffer.readUIntLE, Buffer.subarray_append (f.lengthField_le.trans h), Buffer.readUIntLE]
  simp only [packetLength, hread]

theorem packetLength_take (f : PacketFormat) (x : Buffer) :
    f.packetLength (x.take f.headerLength) = f.packetLength x := by
  have hread : Buffer.readUIntLE (x.take f.headerLength) f.lengthOffset f.lengthBytes =
      x.readUIntLE f.lengthOffset f.lengthBytes := by
    rw [Buffer.readUIntLE, Buffer.subarray_take f.lengthField_le, Buffer.readUIntLE]
  simp only [packetLength, hread]

theorem headerLength_le (f : PacketFormat) (x : Buffer) : f.headerLength ≤ f.packetLength x := by
  simp only [packetLength]
  split
  · exact le_rfl
  · exact le_max_left _ _

theorem headerLength_pos (f : PacketFormat) : f.delimiterBytes < f.headerLength := by
  have : f.delimiterBytes + 1 ≤ f.headerLength := le_max_left _ _
  omega

/-- What the front of the input decides: a packet that has arrived whole is taken, a byte at which no delimiter
stands is discarded. -/
def next (f : PacketFormat) (x : Buffer) : Option (ℕ × Option Buffer) :=
  if x.length < f.delimiterBytes then none
  else if f.has x then
    if x.length < f.headerLength ∨ x.length < f.packetLength x then none
    else some (f.packetLength x, some (x.take (f.packetLength x)))
  else some (1, none)

theorem next_packet {f : PacketFormat} {x : Buffer} (hhas : f.has x = true) (hlen : f.packetLength x ≤ x.length) :
    f.next x = some (f.packetLength x, some (x.take (f.packetLength x))) := by
  have h1 := f.headerLength_le x
  have h2 := f.headerLength_pos
  rw [next, if_neg (by omega), if_pos hhas, if_neg (by omega)]

theorem next_discard {f : PacketFormat} {x : Buffer} (hlen : f.delimiterBytes ≤ x.length) (hhas : f.has x = false) :
    f.next x = some (1, none) := by
  rw [next, if_neg (by omega), hhas]
  simp

theorem next_nil (f : PacketFormat) : f.next [] = none := by
  rw [next, if_pos (by simpa using f.delimiterBytes_pos)]

theorem next_cases {f : PacketFormat} {x : Buffer} {r : ℕ × Option Buffer} (h : f.next x = some r) :
    (f.has x = true ∧ f.packetLength x ≤ x.length ∧ r = (f.packetLength x, some (x.take (f.packetLength x)))) ∨
      (f.delimiterBytes ≤ x.length ∧ f.has x = false ∧ r = (1, none)) := by
  unfold next at h
  split at h
  · cases h
  · split at h
    · rename_i hhas
      split at h
      · cases h
      · exact Or.inl ⟨hhas, by omega, (Option.some.inj h).symm⟩
    · rename_i hlen hhas
      exact Or.inr ⟨by omega, by simpa using hhas, (Option.some.inj h).symm⟩

def cutter (f : PacketFormat) : Cutter UInt8 Buffer where
  next := f.next
  pos := by
    intro x n o h
    have h1 := f.headerLength_le x
    have h2 := f.headerLength_pos
    have h3 := f.delimiterBytes_pos
    rcases next_cases h with ⟨-, hlen, hr⟩ | ⟨hlen, -, hr⟩
    · obtain ⟨rfl, -⟩ := Prod.mk.inj hr
      omega
    · obtain ⟨rfl, -⟩ := Prod.mk.inj hr
      omega
  stable := by
    intro x r z h
    have h1 := f.headerLength_le x
    have h2 := f.headerLength_pos
    rcases next_cases h with ⟨hhas, hlen, rfl⟩ | ⟨hlen, hhas, rfl⟩
    · have hp := f.packetLength_append (x := x) (by omega) z
      rw [next_packet (by rw [f.has_append (by omega), hhas]) (by rw [hp, List.length_append]; omega), hp,
        List.take_append_of_le_length hlen]
    · exact next_discard (by rw [List.length_append]; omega) (by rw [f.has_append hlen, hhas])

end PacketFormat

namespace PacketLengthParser

/-! ### One turn of the loop -/

/-- What the parser remembers about the bytes in its queue is what they say. -/
structure Holds (p : PacketLengthParser) : Prop where
  bytes_wf : p.bytes.WF
  started : p.started = true → p.format.delimiterBytes ≤ p.bytes.bytes.length ∧ p.format.has p.bytes.bytes = true
  length : p.length ≠ 0 → p.started = true ∧ p.format.headerLength ≤ p.bytes.bytes.length ∧
    p.length = p.format.packetLength p.bytes.bytes

theorem Holds.append {p : PacketLengthParser} (h : p.Holds) (chunk : Buffer) :
    Holds { p with bytes := p.bytes.append chunk } ∧
      (p.bytes.append chunk).bytes = p.bytes.bytes ++ chunk := by
  obtain ⟨hwf, hb⟩ := ByteQueue.append_spec h.bytes_wf chunk
  refine ⟨⟨hwf, ?_, ?_⟩, hb⟩
  · intro hs
    obtain ⟨h1, h2⟩ := h.started hs
    simp only [hb, List.length_append]
    exact ⟨by omega, by rw [p.format.has_append h1, h2]⟩
  · intro hl
    obtain ⟨h1, h2, h3⟩ := h.length hl
    simp only [hb, List.length_append]
    exact ⟨h1, by omega, by rw [p.format.packetLength_append h2, h3]⟩

theorem scan_spec (f : PacketFormat) {q : ByteQueue} (h : q.WF) :
    ∃ found q', scan f q = .ok (found, q') ∧ q'.WF ∧ f.cutter.cut q.bytes = f.cutter.cut q'.bytes ∧
      (found = true → f.delimiterBytes ≤ q'.bytes.length ∧ f.has q'.bytes = true) ∧
      (found = false → q'.bytes.length < f.delimiterBytes) := by
  induction hn : q.bytes.length using Nat.strong_induction_on generalizing q with
  | _ n ih =>
    have hlen := h.length_eq
    have hpos := f.delimiterBytes_pos
    rw [scan]
    by_cases hd : q.length ≥ f.delimiterBytes
    · rw [if_pos hd, ByteQueue.peek_spec h hd]
      simp only [f.has_take]
      cases hhas : f.has q.bytes with
      | true => exact ⟨true, q, by rw [if_pos rfl], h, rfl, fun _ => ⟨by omega, hhas⟩, fun hf => nomatch hf⟩
      | false =>
        -- the byte is discarded here, and by the cutter
        obtain ⟨q₁, hq₁, hwf₁, hb₁⟩ := ByteQueue.discard_spec h (n := 1) (by omega)
        have hcut : f.cutter.cut q.bytes = f.cutter.cut q₁.bytes := by
          rw [Cutter.cut_of_some (C := f.cutter) (PacketFormat.next_discard (by omega) hhas), hb₁]
          rfl
        obtain ⟨found, q', h1, h2, h3, h4⟩ := ih q₁.bytes.length (by rw [hb₁, List.length_drop]; omega) hwf₁ rfl
        refine ⟨found, q', ?_, h2, hcut.trans h3, h4⟩
        simp only [Bool.false_eq_true, if_false]
        split
        · rename_i e he
          rw [hq₁] at he
          cases he
        · rename_i q₂ he
          rw [hq₁] at he
          obtain rfl := Except.ok.inj he
          exact h1
    · rw [if_neg hd]
      exact ⟨false, q, rfl, h, rfl, (fun hf => nomatch hf), fun _ => by omega⟩

theorem start_spec {p : PacketLengthParser} (h : p.Holds) :
    ∃ p', p.start = .ok p' ∧ p'.Holds ∧ p'.format = p.format ∧
      p.format.cutter.cut p.bytes.bytes = p.format.cutter.cut p'.bytes.bytes ∧
      (p'.started = false → p'.bytes.bytes.length < p.format.delimiterBytes) := by
  unfold start
  cases hs : p.started with
  | true => exact ⟨p, by simp; rfl, h, rfl, rfl, fun hf => by rw [hs] at hf; cases hf⟩
  | false =>
    have hl : p.length = 0 := by
      by_contra hne
      have := (h.length hne).1
      rw [hs] at this
      cases this
    obtain ⟨found, q, h1, h2, h3, h4, h5⟩ := scan_spec p.format h.bytes_wf
    refine ⟨{ p with started := found, bytes := q }, ?_, ⟨h2, h4, fun hne => absurd hl hne⟩, rfl, h3, h5⟩
    simp only [Bool.false_eq_true, if_false, h1]
    rfl

theorem header_spec {p : PacketLengthParser} (h : p.Holds) (hs : p.started = true) :
    ∃ p', p.header = .ok p' ∧ p'.Holds ∧ p'.format = p.format ∧ p'.bytes = p.bytes ∧ p'.started = true ∧
      (p'.length = 0 → p.bytes.bytes.length < p.format.headerLength) := by
  have hlen := h.bytes_wf.length_eq
  unfold header
  by_cases hl : p.length ≠ 0
  · rw [if_pos hl]
    exact ⟨p, rfl, h, rfl, rfl, hs, fun h0 => absurd h0 hl⟩
  · rw [if_neg hl]
    by_cases hh : p.bytes.length < p.format.headerLength
    · rw [if_pos hh]
      exact ⟨p, rfl, h, rfl, rfl, hs, fun _ => by omega⟩
    · rw [if_neg hh, ByteQueue.peek_spec h.bytes_wf (by omega)]
      refine ⟨{ p with length := p.format.packetLength p.bytes.bytes }, ?_, ⟨h.bytes_wf, h.started, ?_⟩, rfl, rfl, hs, ?_⟩
      · rw [← p.format.packetLength_take]
        rfl
      · intro _
        exact ⟨hs, by simp only; omega, rfl⟩
      · intro h0
        have h1 := p.format.headerLength_le p.bytes.bytes
        have h2 := p.format.headerLength_pos
        simp only at h0
        omega

/-- What one turn does, against the cutter. -/
theorem turn_spec {p : PacketLengthParser} (h : p.Holds) :
    ∃ o p', p.turn = .ok (o, p') ∧ p'.Holds ∧ p'.format = p.format ∧
      match o with
      | none => p.format.cutter.cut p.bytes.bytes = ([], p'.bytes.bytes)
      | some packet => p.format.cutter.cut p.bytes.bytes =
          (packet :: (p.format.cutter.cut p'.bytes.bytes).1, (p.format.cutter.cut p'.bytes.bytes).2) := by
  obtain ⟨p₁, h1, h2, h3, h4, h5⟩ := start_spec h
  unfold turn
  rw [h1]
  cases hs : p₁.started with
  | false =>
    -- too few bytes for a delimiter
    refine ⟨none, p₁, by simp [bind, Except.bind, hs]; rfl, h2, h3, ?_⟩
    have hnext : p.format.next p₁.bytes.bytes = none := by
      rw [PacketFormat.next, if_pos (h5 hs)]
    exact h4.trans (Cutter.cut_of_none hnext)
  | true =>
    obtain ⟨p₂, i1, i2, i3, i4, i5, i6⟩ := header_spec h2 hs
    obtain ⟨hdl, hhas⟩ := h2.started hs
    have hlen := i2.bytes_wf.length_eq
    rw [i4] at hlen
    rw [h3] at hdl hhas i6
    have hturn : (Except.ok p₁ >>= fun q => do
        if !q.started then return (none, q)
        let q ← q.header
        q.body : Except String (Option Buffer × PacketLengthParser)) = p₂.body := by
      simp [bind, Except.bind, hs, i1]
    rw [hturn]
    unfold body
    by_cases hb : p₂.length = 0 ∨ p₂.bytes.length < p₂.length
    · -- the header or the body has not arrived
      rw [if_pos hb]
      refine ⟨none, p₂, rfl, i2, i3.trans h3, ?_⟩
      have hnext : p.format.next p₁.bytes.bytes = none := by
        rw [PacketFormat.next, if_neg (by omega), if_pos hhas, if_pos]
        by_cases hl : p₂.length = 0
        · exact Or.inl (i6 hl)
        · have hpl := (i2.length hl).2.2
          rw [i3, h3, i4] at hpl
          rw [i4] at hb
          exact Or.inr (by omega)
      rw [i4]
      exact h4.trans (Cutter.cut_of_none hnext)
    · rw [if_neg hb]
      have hpl := (i2.length (by omega)).2.2
      rw [i3, h3, i4] at hpl
      rw [i4] at hb ⊢
      obtain ⟨q, j1, j2, j3⟩ := ByteQueue.take_spec h2.bytes_wf (n := p₂.length) (by omega)
      rw [j1]
      refine ⟨some (p₁.bytes.bytes.take p₂.length), { p₂ with bytes := q, length := 0, started := false }, rfl,
        ⟨j2, (fun hf => nomatch hf), fun hne => absurd rfl hne⟩, i3.trans h3, ?_⟩
      rw [h4, Cutter.cut_of_some (C := p.format.cutter) (PacketFormat.next_packet hhas (by omega)), j3, hpl]
      rfl

/-! ### Whole streams -/

/-- **One call of `_transform`**: it pushes what the bytes at hand are cut into, and keeps their rest. -/
theorem transformLoop_spec {p : PacketLengthParser} (h : p.Holds) :
    p.transformLoop.error = none ∧ p.transformLoop.state.Holds ∧ p.transformLoop.state.format = p.format ∧
      p.format.cutter.cut p.bytes.bytes = (p.transformLoop.pushed, p.transformLoop.state.bytes.bytes) := by
  induction hn : p.bytes.length using Nat.strong_induction_on generalizing p with
  | _ n ih =>
    obtain ⟨o, p₁, h1, h2, h3, h4⟩ := turn_spec h
    rw [transformLoop]
    split
    · rename_i e he
      rw [h1] at he
      cases he
    · rename_i p₂ he
      rw [h1] at he
      obtain ⟨rfl, rfl⟩ := Prod.mk.inj (Except.ok.inj he)
      exact ⟨rfl, h2, h3, h4⟩
    · rename_i packet p₂ he
      rw [h1] at he
      obtain ⟨rfl, rfl⟩ := Prod.mk.inj (Except.ok.inj he)
      have hlt := turn_length_lt h1
      obtain ⟨i1, i2, i3, i4⟩ := ih p₁.bytes.length (by omega) h2 rfl
      refine ⟨i1, i2, i3.trans h3, ?_⟩
      rw [h3] at i4
      exact h4.trans (by rw [i4])

theorem new_holds (format : PacketFormat) : (new format).Holds :=
  ⟨ByteQueue.wf_empty, (fun h => nomatch h), fun h => absurd rfl h⟩

/-- The parser after a run of chunks has pushed what their concatenation is cut into, and keeps its rest. -/
theorem run_spec (format : PacketFormat) (chunks : List Buffer) :
    (stream.run (new format) chunks).error = none ∧ (stream.run (new format) chunks).state.Holds ∧
      format.cutter.cut chunks.flatten =
        ((stream.run (new format) chunks).pushed, (stream.run (new format) chunks).state.bytes.bytes) := by
  let R : List UInt8 → List Buffer → PacketLengthParser → Prop := fun x out q =>
    q.Holds ∧ q.format = format ∧ format.cutter.cut x = (out, q.bytes.bytes)
  have hR₀ : R [] [] (new format) := ⟨new_holds format, rfl, Cutter.cut_of_none format.next_nil⟩
  have hstep : ∀ x out q c, R x out q → (stream.transform q c).error = none ∧
      R (x ++ c) (out ++ (stream.transform q c).pushed) (stream.transform q c).state := by
    rintro x out q c ⟨r1, r2, r3⟩
    obtain ⟨a1, a2⟩ := r1.append c
    obtain ⟨t1, t2, t3, t4⟩ := transformLoop_spec a1
    have hcut : q.format.cutter = format.cutter := by rw [r2]
    change q.format.cutter.cut (q.bytes.append c).bytes = _ at t4
    rw [hcut, a2] at t4
    refine ⟨t1, t2, t3.trans r2, ?_⟩
    rw [Cutter.cut_append, r3, t4]
    rfl
  obtain ⟨hok, r1, -, r3⟩ := Transform.run_rule R hstep hR₀ chunks
  exact ⟨hok, r1, r3⟩

/-- A packet that a parser with these settings recovers: it starts with a delimiter, its length field is within the
limit, and it is as long as the field says, or as its header. -/
structure WellFormed (f : PacketFormat) (packet : Buffer) : Prop where
  delimiter : (packet.readUIntBE 0 f.delimiterBytes : ℤ) ∈ f.delimiters
  payload : packet.readUIntLE f.lengthOffset f.lengthBytes ≤ f.maxLen
  length : packet.length =
    max f.headerLength (packet.readUIntLE f.lengthOffset f.lengthBytes + f.packetOverhead)

/-- **Well-formed packets are recovered exactly.**  For every configuration that the constructor accepts, every list
of well-formed packets and every way of cutting their concatenation into chunks, the parser pushes the packets in
order, and its flush pushes no bytes. -/
theorem packet_length_recovers (options : PacketLengthOptions) (p : PacketLengthParser) (hp : create options = .ok p)
    (packets chunks : List Buffer) (hpackets : ∀ packet ∈ packets, WellFormed p.format packet)
    (hchunks : chunks.flatten = packets.flatten) :
    (stream.run p chunks).error = none ∧ (stream.run p chunks).pushed = packets ∧
      (stream.flush (stream.run p chunks).state).error = none ∧
      (stream.flush (stream.run p chunks).state).pushed.flatten = [] := by
  obtain ⟨format, hf⟩ : ∃ format, p = new format := by
    cases hf : PacketFormat.create options with
    | error e => rw [create, hf] at hp; cases hp
    | ok f =>
      rw [create, hf] at hp
      exact ⟨f, (Except.ok.inj hp).symm⟩
  subst hf
  change ∀ packet ∈ packets, WellFormed format packet at hpackets
  obtain ⟨h1, h2, h3⟩ := run_spec format chunks
  -- every packet is one decision of the cutter
  have hnext : ∀ packet ∈ packets, format.cutter.next packet = some (packet.length, some (id packet)) := by
    intro packet hmem
    obtain ⟨hd, hv, hl⟩ := hpackets packet hmem
    have hlen : format.packetLength packet = packet.length := by
      rw [PacketFormat.packetLength, if_neg (Nat.not_lt.2 hv), hl]
    have hhas : format.has packet = true := by simpa [PacketFormat.has] using hd
    have := PacketFormat.next_packet hhas hlen.le
    rwa [hlen, List.take_length] at this
  rw [hchunks, Cutter.cut_flatten hnext format.next_nil, List.map_id] at h3
  obtain ⟨hpushed, hrest⟩ := Prod.mk.inj h3
  have hflush : stream.flush (stream.run (new format) chunks).state =
      ⟨{ (stream.run (new format) chunks).state with bytes := {} }, [[]], none⟩ := by
    change flush _ = _
    simp only [flush, ByteQueue.take_all h2.bytes_wf, ← hrest]
  exact ⟨h1, hpushed.symm, by rw [hflush], by rw [hflush]; rfl⟩

/-- Two delimiters of three bytes and a length field of two, cut inside a delimiter and inside a length. -/
theorem packet_length_recovers_split : ∃ p,
    create { delimiter := .inr [0xabc123, 0x987654], delimiterBytes := 3, lengthOffset := 3, lengthBytes := 2,
             packetOverhead := 5, maxLen := 1024 } = .ok p ∧
    (stream.run p [[0xab, 0xc1], [0x23, 3], [0, 1, 2, 3, 0x98, 0x76, 0x54, 1, 0, 4]]).pushed =
      [[0xab, 0xc1, 0x23, 3, 0, 1, 2, 3], [0x98, 0x76, 0x54, 1, 0, 4]] := by
  refine ⟨_, rfl, (packet_length_recovers
    { delimiter := .inr [0xabc123, 0x987654], delimiterBytes := 3, lengthOffset := 3, lengthBytes := 2,
      packetOverhead := 5, maxLen := 1024 } _ rfl
    [[0xab, 0xc1, 0x23, 3, 0, 1, 2, 3], [0x98, 0x76, 0x54, 1, 0, 4]]
    [[0xab, 0xc1], [0x23, 3], [0, 1, 2, 3, 0x98, 0x76, 0x54, 1, 0, 4]] ?_ rfl).2.1⟩
  intro packet hmem
  simp only [List.mem_cons, List.not_mem_nil, or_false] at hmem
  rcases hmem with rfl | rfl
  · exact ⟨by decide, by decide, by decide⟩
  · exact ⟨by decide, by decide, by decide⟩

end PacketLengthParser

end NodeSerialport.Parsers
