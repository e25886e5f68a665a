import NodeSerialport.Lib.Cutter
import NodeSerialport.Lib.Transform
import NodeSerialport.Parsers.ByteQueue
import Mathlib.Algebra.Order.Ring.Int
import Mathlib.Data.List.Forall2

/-!
# `SpacePacketParser`

A CCSDS space packet is a primary header of six bytes and one to 65536 bytes of data.  The header is consumed as soon
as it has arrived; the data are split into a time code, ancillary data and the rest.

* `cutter t a` — the same decisions as a function of the bytes that have arrived;
* `Holds t a p y` — the parser keeps the bytes `y`, a header it has consumed included;
* `Sent`, `Sent.encode`, `Sent.packet` — a packet by its fields, its bytes, and the object to be pushed for it;
* `space_packets_decoded`: encoded packets are decoded from any cut of their bytes into chunks.
-/

namespace NodeSerialport.Parsers

open NodeSerialport.Lib

inductive VersionNumber where
  /-- Version `1`. -/
  | one
  | unknownVersion
  deriving DecidableEq, Repr

structure Identification where
  apid : ℕ
  secondaryHeader : ℕ
  type : ℕ
  deriving DecidableEq, Repr

structure SequenceControl where
  packetName : ℕ
  sequenceFlags : ℕ
  deriving DecidableEq, Repr

structure SpacePacketHeader where
  versionNumber : VersionNumber
  identification : Identification
  sequenceControl : SequenceControl
  dataLength : ℕ
  deriving DecidableEq, Repr

structure SecondaryHeader where
  timeCode : Option String := none
  ancillaryData : Option String := none
  deriving DecidableEq, Repr

structure SpacePacket where
  header : SpacePacketHeader
  secondaryHeader : Option SecondaryHeader := none
  data : String
  deriving DecidableEq, Repr

/-- What the parser pushes: packets, and at the end an array of the incomplete trailing bytes. -/
inductive SpacePacketOutput where
  | packet (packet : SpacePacket)
  | trailing (bytes : Buffer)
  deriving DecidableEq, Repr

structure SpacePacketOptions where
  timeCodeFieldLength : ℤ := 0
  ancillaryDataFieldLength : ℤ := 0

structure SpacePacketParser where
  bytes : ByteQueue := {}
  header : Option SpacePacketHeader := none
  timeCodeFieldLength : ℕ
  ancillaryDataFieldLength : ℕ

namespace SpacePacketParser

def create (options : SpacePacketOptions) : Except String SpacePacketParser := do
  let timeCodeFieldLength ← integer options.timeCodeFieldLength "timeCodeFieldLength" 0 maxSafeInteger
  let ancillaryDataFieldLength ← integer options.ancillaryDataFieldLength "ancillaryDataFieldLength" 0 maxSafeInteger
  return {
    timeCodeFieldLength := timeCodeFieldLength.toNat
    ancillaryDataFieldLength := ancillaryDataFieldLength.toNat }

/-- The fields of a primary header. -/
def readHeader (header : Buffer) : SpacePacketHeader :=
  let id := header.readUIntBE 0 2
  let sequence := header.readUIntBE 2 2
  { versionNumber := if id >>> 13 = 0 then .one else .unknownVersion
    identification := { apid := id &&& 0x7ff, secondaryHeader := (id >>> 11) &&& 1, type := (id >>> 12) &&& 1 }
    sequenceControl := { packetName := sequence &&& 0x3fff, sequenceFlags := sequence >>> 14 }
    dataLength := header.readUIntBE 4 2 + 1 }

section

/-! ### The parser

`text` is `buffer.toString('utf8')`. -/

variable (text : Buffer → String)

/-- The object for a header and its data, with the two optional fields in front of the data. -/
def packet (timeCodeFieldLength ancillaryDataFieldLength : ℕ) (header : SpacePacketHeader) (bytes : Buffer) :
    SpacePacket :=
  let timeEnd := min bytes.length timeCodeFieldLength
  let ancillaryEnd := min bytes.length (timeEnd + ancillaryDataFieldLength)
  { header := header
    data := text (bytes.subarray ancillaryEnd bytes.length)
    secondaryHeader :=
      if ancillaryEnd ≠ 0 then
        some {
          timeCode := if timeEnd ≠ 0 then some (text (bytes.subarray 0 timeEnd)) else none
          ancillaryData := if ancillaryEnd > timeEnd then some (text (bytes.subarray timeEnd ancillaryEnd)) else none }
      else none }

/-- The first stage of a turn: consume a header, unless one was consumed or has not arrived. -/
def start (p : SpacePacketParser) : Except String SpacePacketParser :=
  if p.header.isSome then return p
  else if p.bytes.length < 6 then return p
  else do
    let (header, bytes) ← p.bytes.take 6
    return { p with bytes, header := some (readHeader header) }

/-- The second stage: the packet, if its data have arrived. -/
def body (p : SpacePacketParser) : Except String (Option SpacePacket × SpacePacketParser) :=
  match p.header with
  | none => return (none, p)
  | some header =>
    if p.bytes.length < header.dataLength then return (none, p)
    else do
      let (data, bytes) ← p.bytes.take header.dataLength
      return (some (packet text p.timeCodeFieldLength p.ancillaryDataFieldLength header data),
        { p with bytes, header := none })

/-- One turn of the loop of `_transform`: the packet it pushes, or `none` where it leaves the loop. -/
def turn (p : SpacePacketParser) : Except String (Option SpacePacket × SpacePacketParser) := do
  let p ← p.start
  body text p

/-- What the loop has before it: bytes, and a header that was consumed. -/
def work (p : SpacePacketParser) : ℕ := 2 * p.bytes.length + if p.header.isSome then 1 else 0

theorem start_work_le {p p' : SpacePacketParser} (h : p.start = .ok p') : p'.work ≤ p.work := by
  unfold start at h
  split at h
  · obtain rfl := Except.ok.inj h
    exact le_rfl
  · split at h
    · obtain rfl := Except.ok.inj h
      exact le_rfl
    · obtain ⟨⟨b, q⟩, ht, h⟩ := bind_eq_ok h
      obtain rfl := Except.ok.inj h
      have := ByteQueue.take_length ht
      simp only [work, Option.isSome_some, if_true]
      omega

theorem body_work_lt {p p' : SpacePacketParser} {o : SpacePacket} (h : body text p = .ok (some o, p')) :
    p'.work < p.work := by
  unfold body at h
  split at h
  · cases h
  · rename_i header hheader
    split at h
    · cases h
    · obtain ⟨⟨b, q⟩, ht, h⟩ := bind_eq_ok h
      obtain ⟨-, rfl⟩ := Prod.mk.inj (Except.ok.inj h)
      have := ByteQueue.take_length ht
      simp only [work, hheader, Option.isSome_some, Option.isSome_none, if_true, Bool.false_eq_true, if_false]
      omega

theorem turn_work_lt {p p' : SpacePacketParser} {o : SpacePacket} (h : turn text p = .ok (some o, p')) :
    p'.work < p.work := by
  obtain ⟨p₁, hs, hb⟩ := bind_eq_ok h
  exact (body_work_lt text hb).trans_le (start_work_le hs)

/-- The loop of `_transform`. -/
def transformLoop (p : SpacePacketParser) : Outcome SpacePacketParser SpacePacketOutput ParserError :=
  match _h : turn text p with
  | .error message => ⟨p, [], some (.thrown message)⟩
  | .ok (none, p) => ⟨p, [], none⟩
  | .ok (some packet, p) =>
    let rest := transformLoop p
    ⟨rest.state, .packet packet :: rest.pushed, rest.error⟩
termination_by p.work
decreasing_by exact turn_work_lt text _h

def transform (p : SpacePacketParser) (chunk : Buffer) : Outcome SpacePacketParser SpacePacketOutput ParserError :=
  transformLoop text { p with bytes := p.bytes.append chunk }

def flush (p : SpacePacketParser) : Outcome SpacePacketParser SpacePacketOutput ParserError :=
  match p.bytes.take p.bytes.length with
  | .error message => ⟨p, [], some (.thrown message)⟩
  | .ok (rest, bytes) => ⟨{ p with bytes, header := none }, [.trailing rest], none⟩

/-- The parser as a transform stream. -/
def stream : Transform SpacePacketParser UInt8 SpacePacketOutput ParserError where
  transform := transform text
  flush := flush

/-! ### The decisions as a function of the bytes -/

theorem readHeader_append {x : Buffer} (h : 6 ≤ x.length) (z : Buffer) : readHeader (x ++ z) = readHeader x := by
  have hread : ∀ offset, offset + 2 ≤ x.length →
      Buffer.readUIntBE (x ++ z) offset 2 = Buffer.readUIntBE x offset 2 := by
    intro offset ho
    rw [Buffer.readUIntBE, Buffer.subarray_append ho, Buffer.readUIntBE]
  simp only [readHeader, hread 0 (by omega), hread 2 (by omega), hread 4 (by omega)]

theorem readHeader_take (x : Buffer) : readHeader (x.take 6) = readHeader x := by
  have hread : ∀ offset, offset + 2 ≤ 6 →
      Buffer.readUIntBE (x.take 6) offset 2 = Buffer.readUIntBE x offset 2 := by
    intro offset ho
    rw [Buffer.readUIntBE, Buffer.subarray_take ho, Buffer.readUIntBE]
  simp only [readHeader, hread 0 (by omega), hread 2 (by omega), hread 4 (by omega)]

/-- What the front of the input decides: a packet that has arrived whole is taken. -/
def next (t a : ℕ) (x : Buffer) : Option (ℕ × Option SpacePacket) :=
  let length := 6 + (readHeader x).dataLength
  if x.length < 6 ∨ x.length < length then none
  else some (length, some (packet text t a (readHeader x) (x.subarray 6 length)))

theorem next_cases {t a : ℕ} {x : Buffer} {r : ℕ × Option SpacePacket} (h : next text t a x = some r) :
    6 + (readHeader x).dataLength ≤ x.length ∧ r = (6 + (readHeader x).dataLength,
      some (packet text t a (readHeader x) (x.subarray 6 (6 + (readHeader x).dataLength)))) := by
  simp only [next] at h
  split at h
  · cases h
  · exact ⟨by omega, (Option.some.inj h).symm⟩

theorem next_of_le {t a : ℕ} {x : Buffer} (h : 6 + (readHeader x).dataLength ≤ x.length) :
    next text t a x = some (6 + (readHeader x).dataLength,
      some (packet text t a (readHeader x) (x.subarray 6 (6 + (readHeader x).dataLength)))) := by
  simp only [next]
  rw [if_neg (by omega)]

def cutter (t a : ℕ) : Cutter UInt8 SpacePacket where
  next := next text t a
  pos := by
    intro x n o h
    obtain ⟨hlen, hr⟩ := next_cases text h
    obtain ⟨rfl, -⟩ := Prod.mk.inj hr
    omega
  stable := by
    intro x r z h
    obtain ⟨hlen, rfl⟩ := next_cases text h
    have hh := readHeader_append (x := x) (by omega) z
    rw [next_of_le text (by rw [hh, List.length_append]; omega), hh, Buffer.subarray_append hlen]

/-! ### One turn of the loop -/

/-- The parser keeps the bytes `y`; the header of theirs may have been consumed. -/
structure Holds (t a : ℕ) (p : SpacePacketParser) (y : Buffer) : Prop where
  bytes_wf : p.bytes.WF
  timeCode : p.timeCodeFieldLength = t
  ancillary : p.ancillaryDataFieldLength = a
  waiting : p.header = none → p.bytes.bytes = y
  consumed : ∀ h, p.header = some h → 6 ≤ y.length ∧ p.bytes.bytes = y.drop 6 ∧ h = readHeader y

theorem Holds.append {t a : ℕ} {p : SpacePacketParser} {y : Buffer} (h : Holds t a p y) (chunk : Buffer) :
    Holds t a { p with bytes := p.bytes.append chunk } (y ++ chunk) := by
  obtain ⟨hwf, hb⟩ := ByteQueue.append_spec h.bytes_wf chunk
  refine ⟨hwf, h.timeCode, h.ancillary, ?_, ?_⟩
  · intro hn
    rw [hb, h.waiting hn]
  · intro header hheader
    obtain ⟨h1, h2, h3⟩ := h.consumed header hheader
    simp only [List.length_append]
    exact ⟨by omega, by rw [hb, h2, List.drop_append_of_le_length h1], by rw [readHeader_append h1, h3]⟩

theorem start_spec {t a : ℕ} {p : SpacePacketParser} {y : Buffer} (h : Holds t a p y) :
    ∃ p', p.start = .ok p' ∧ Holds t a p' y ∧ (p'.header = none → y.length < 6) := by
  unfold start
  cases hh : p.header with
  | some header => exact ⟨p, rfl, h, fun hn => by rw [hh] at hn; cases hn⟩
  | none =>
    have hy := h.waiting hh
    have hlen := h.bytes_wf.length_eq
    by_cases h6 : p.bytes.length < 6
    · refine ⟨p, by simp [h6]; rfl, h, ?_⟩
      intro _
      rw [← hy]
      omega
    · obtain ⟨q, h1, h2, h3⟩ := ByteQueue.take_spec h.bytes_wf (n := 6) (by omega)
      rw [hy] at h1 h3 hlen
      refine ⟨{ p with bytes := q, header := some (readHeader y) }, ?_, ⟨h2, h.timeCode, h.ancillary, ?_, ?_⟩, ?_⟩
      · rw [if_neg (by simp), if_neg h6, h1, ← readHeader_take y]
        rfl
      · intro hn
        cases hn
      · intro header hheader
        exact ⟨by omega, h3, (Option.some.inj hheader).symm⟩
      · intro hn
        cases hn

/-- The parser has left the loop: a header that has arrived is consumed. -/
structure Settled (t a : ℕ) (p : SpacePacketParser) (y : Buffer) : Prop extends Holds t a p y where
  missing : p.header = none → y.length < 6

/-- What one turn does, against the cutter. -/
theorem turn_spec {t a : ℕ} {p : SpacePacketParser} {y : Buffer} (h : Holds t a p y) :
    ∃ o p' y', turn text p = .ok (o, p') ∧ Holds t a p' y' ∧
      match o with
      | none => (cutter text t a).cut y = ([], y') ∧ (p'.header = none → y'.length < 6)
      | some packet => (cutter text t a).cut y =
          (packet :: ((cutter text t a).cut y').1, ((cutter text t a).cut y').2) := by
  obtain ⟨p₁, h1, h2, h3⟩ := start_spec h
  have hturn : turn text p = body text p₁ := by
    rw [turn, h1]
    rfl
  rw [hturn]
  unfold body
  have hlen := h2.bytes_wf.length_eq
  cases hh : p₁.header with
  | none =>
    -- the header has not arrived
    have h6 := h3 hh
    have hnext : (cutter text t a).next y = none := by
      change next text t a y = none
      simp only [next]
      rw [if_pos (Or.inl h6)]
    exact ⟨none, p₁, y, rfl, h2, Cutter.cut_of_none hnext, h3⟩
  | some header =>
    obtain ⟨c1, c2, rfl⟩ := h2.consumed header hh
    rw [c2, List.length_drop] at hlen
    simp only
    by_cases hb : p₁.bytes.length < (readHeader y).dataLength
    · -- the data have not arrived
      have hnext : (cutter text t a).next y = none := by
        change next text t a y = none
        simp only [next]
        rw [if_pos (Or.inr (by omega))]
      rw [if_pos hb]
      exact ⟨none, p₁, y, rfl, h2, Cutter.cut_of_none hnext, h3⟩
    · obtain ⟨q, j1, j2, j3⟩ := ByteQueue.take_spec h2.bytes_wf (n := (readHeader y).dataLength) (by omega)
      rw [c2] at j1 j3
      refine ⟨some (packet text t a (readHeader y) ((y.drop 6).take (readHeader y).dataLength)),
        { p₁ with bytes := q, header := none }, y.drop (6 + (readHeader y).dataLength), ?_,
        ⟨j2, h2.timeCode, h2.ancillary, ?_, fun _ hn => nomatch hn⟩, ?_⟩
      · rw [if_neg hb, j1, ← h2.timeCode, ← h2.ancillary]
        rfl
      · intro _
        rw [j3, List.drop_drop]
      · have hnext : (cutter text t a).next y = _ := next_of_le text (t := t) (a := a) (x := y) (by omega)
        rw [Cutter.cut_of_some hnext, Buffer.subarray, Nat.add_sub_cancel_left]
        rfl

/-! ### Whole streams -/

/-- **One call of `_transform`**: it pushes what the bytes at hand are cut into, and keeps their rest. -/
theorem transformLoop_spec {t a : ℕ} {p : SpacePacketParser} {y : Buffer} (h : Holds t a p y) :
    (transformLoop text p).error = none ∧
      Settled t a (transformLoop text p).state ((cutter text t a).cut y).2 ∧
      (transformLoop text p).pushed = ((cutter text t a).cut y).1.map .packet := by
  induction hn : p.work using Nat.strong_induction_on generalizing p y with
  | _ n ih =>
    obtain ⟨o, p₁, y₁, h1, h2, h3⟩ := turn_spec text h
    rw [transformLoop]
    split
    · rename_i e he
      rw [h1] at he
      cases he
    · rename_i p₂ he
      rw [h1] at he
      obtain ⟨rfl, rfl⟩ := Prod.mk.inj (Except.ok.inj he)
      simp only at h3
      rw [h3.1]
      exact ⟨rfl, ⟨h2, h3.2⟩, rfl⟩
    · rename_i packet p₂ he
      rw [h1] at he
      obtain ⟨rfl, rfl⟩ := Prod.mk.inj (Except.ok.inj he)
      obtain ⟨i1, i2, i3⟩ := ih p₁.work (by have := turn_work_lt text h1; omega) h2 rfl
      simp only at h3
      rw [h3]
      exact ⟨i1, i2, by simp only [i3, List.map_cons]⟩

theorem create_holds {options : SpacePacketOptions} {p : SpacePacketParser} (hp : create options = .ok p) :
    Holds options.timeCodeFieldLength.toNat options.ancillaryDataFieldLength.toNat p [] := by
  obtain ⟨t, ht, hp⟩ := bind_eq_ok hp
  obtain ⟨a, ha, hp⟩ := bind_eq_ok hp
  obtain rfl := Except.ok.inj hp
  rw [← (integer_eq_ok ht).1, ← (integer_eq_ok ha).1]
  exact ⟨ByteQueue.wf_empty, rfl, rfl, fun _ => rfl, fun _ hn => nomatch hn⟩

/-- The parser after a run of chunks has pushed what their concatenation is cut into, and keeps its rest. -/
theorem run_spec {t a : ℕ} {p : SpacePacketParser} (h : Holds t a p []) (chunks : List Buffer) :
    ((stream text).run p chunks).error = none ∧
      Settled t a ((stream text).run p chunks).state ((cutter text t a).cut chunks.flatten).2 ∧
      ((stream text).run p chunks).pushed = ((cutter text t a).cut chunks.flatten).1.map .packet := by
  let R : List UInt8 → List SpacePacketOutput → SpacePacketParser → Prop := fun x out q =>
    Settled t a q ((cutter text t a).cut x).2 ∧ out = ((cutter text t a).cut x).1.map .packet
  have hnil : (cutter text t a).cut [] = ([], []) := by
    apply Cutter.cut_of_none
    change next text t a [] = none
    simp only [next]
    rw [if_pos (Or.inl (by simp))]
  have hR₀ : R [] [] p := by
    refine ⟨?_, ?_⟩
    · rw [hnil]
      exact ⟨h, fun _ => by simp⟩
    · rw [hnil]
      rfl
  have hstep : ∀ x out q c, R x out q → ((stream text).transform q c).error = none ∧
      R (x ++ c) (out ++ ((stream text).transform q c).pushed) ((stream text).transform q c).state := by
    rintro x out q c ⟨r1, rfl⟩
    obtain ⟨t1, t2, t3⟩ := transformLoop_spec text (r1.toHolds.append c)
    refine ⟨t1, ?_, ?_⟩
    · rw [Cutter.cut_append]
      exact t2
    · rw [Cutter.cut_append, List.map_append, ← t3]
      rfl
  obtain ⟨hok, r1, r2⟩ := Transform.run_rule R hstep hR₀ chunks
  exact ⟨hok, r1, r2⟩

/-! ### Packets by their fields -/

/-- The bytes of a number below `2 ^ 16`, big-endian. -/
def bytes16 (n : ℕ) : Buffer := [UInt8.ofNat (n / 256), UInt8.ofNat n]

/-- A packet to be sent: the fields of the primary header by their widths, and the data. -/
structure Sent where
  version : Fin 8
  type : Fin 2
  secondaryHeader : Fin 2
  apid : Fin 2048
  sequenceFlags : Fin 4
  packetName : Fin 16384
  data : Buffer
  data_pos : 0 < data.length
  data_le : data.length ≤ 65536

/-- The first two words of the primary header. -/
def Sent.id (s : Sent) : ℕ := s.version * 2 ^ 13 + s.type * 2 ^ 12 + s.secondaryHeader * 2 ^ 11 + s.apid

def Sent.sequence (s : Sent) : ℕ := s.sequenceFlags * 2 ^ 14 + s.packetName

/-- The encoded packet: the length field holds the number of data bytes less one. -/
def Sent.encode (s : Sent) : Buffer :=
  bytes16 s.id ++ bytes16 s.sequence ++ bytes16 (s.data.length - 1) ++ s.data

/-- The header to be reported. -/
def Sent.header (s : Sent) : SpacePacketHeader where
  versionNumber := if s.version = 0 then .one else .unknownVersion
  identification := { apid := s.apid, secondaryHeader := s.secondaryHeader, type := s.type }
  sequenceControl := { packetName := s.packetName, sequenceFlags := s.sequenceFlags }
  dataLength := s.data.length

theorem readUIntBE_bytes16 {n : ℕ} (h : n < 2 ^ 16) (before after : Buffer) :
    Buffer.readUIntBE (before ++ bytes16 n ++ after) before.length 2 = n := by
  have hsub : Buffer.subarray (before ++ bytes16 n ++ after) before.length (before.length + 2) = bytes16 n := by
    rw [Buffer.subarray, List.append_assoc, List.drop_left, Nat.add_sub_cancel_left]
    rfl
  rw [Buffer.readUIntBE, hsub]
  simp only [bytes16, List.foldl_cons, List.foldl_nil, UInt8.toNat_ofNat']
  omega

theorem Sent.id_lt (s : Sent) : s.id < 2 ^ 16 := by
  unfold id
  omega

theorem Sent.sequence_lt (s : Sent) : s.sequence < 2 ^ 16 := by
  unfold sequence
  omega

/-- **Bit fields.**  Reading the primary header of an encoded packet gives its fields back. -/
theorem readHeader_encode (s : Sent) : readHeader s.encode = s.header := by
  have hpos := s.data_pos
  have hle := s.data_le
  have h0 : s.encode.readUIntBE 0 2 = s.id := by
    have := readUIntBE_bytes16 s.id_lt [] (bytes16 s.sequence ++ bytes16 (s.data.length - 1) ++ s.data)
    simpa [Sent.encode] using this
  have h2 : s.encode.readUIntBE 2 2 = s.sequence := by
    have := readUIntBE_bytes16 s.sequence_lt (bytes16 s.id) (bytes16 (s.data.length - 1) ++ s.data)
    simpa [Sent.encode, bytes16] using this
  have h4 : s.encode.readUIntBE 4 2 = s.data.length - 1 := by
    have := readUIntBE_bytes16 (n := s.data.length - 1) (by omega) (bytes16 s.id ++ bytes16 s.sequence) s.data
    simpa [Sent.encode, bytes16] using this
  have hversion : s.id >>> 13 = s.version := by
    rw [Nat.shiftRight_eq_div_pow, Sent.id]
    omega
  have htype : (s.id >>> 12) &&& 1 = s.type := by
    rw [Nat.shiftRight_eq_div_pow, Nat.and_two_pow_sub_one_eq_mod _ 1, Sent.id]
    omega
  have hsecondary : (s.id >>> 11) &&& 1 = s.secondaryHeader := by
    rw [Nat.shiftRight_eq_div_pow, Nat.and_two_pow_sub_one_eq_mod _ 1, Sent.id]
    omega
  have hapid : s.id &&& 0x7ff = s.apid := by
    rw [Nat.and_two_pow_sub_one_eq_mod _ 11, Sent.id]
    omega
  have hname : s.sequence &&& 0x3fff = s.packetName := by
    rw [Nat.and_two_pow_sub_one_eq_mod _ 14, Sent.sequence]
    omega
  have hflags : s.sequence >>> 14 = s.sequenceFlags := by
    rw [Nat.shiftRight_eq_div_pow, Sent.sequence]
    omega
  simp only [readHeader, Sent.header, h0, h2, h4, hversion, htype, hsecondary, hapid, hname, hflags,
    Nat.sub_add_cancel hpos, Fin.val_eq_zero_iff]

def Sent.timeEnd (s : Sent) (t : ℕ) : ℕ := min s.data.length t

def Sent.ancillaryEnd (s : Sent) (t a : ℕ) : ℕ := min s.data.length (s.timeEnd t + a)

/-- `o` is what a packet is decoded to: its header, and the texts of three consecutive slices of its data.  The two
optional texts are present where their slices are not empty. -/
structure Decodes (t a : ℕ) (s : Sent) (o : SpacePacket) : Prop where
  header : o.header = s.header
  secondaryHeader : o.secondaryHeader.isSome ↔ 0 < s.ancillaryEnd t a
  timeCode : (o.secondaryHeader.bind fun h => h.timeCode) =
    if s.timeEnd t = 0 then none else some (text (s.data.subarray 0 (s.timeEnd t)))
  ancillaryData : (o.secondaryHeader.bind fun h => h.ancillaryData) =
    if s.ancillaryEnd t a = s.timeEnd t then none
    else some (text (s.data.subarray (s.timeEnd t) (s.ancillaryEnd t a)))
  data : o.data = text (s.data.subarray (s.ancillaryEnd t a) s.data.length)

theorem packet_decodes (t a : ℕ) (s : Sent) : Decodes text t a s (packet text t a s.header s.data) := by
  have hle : s.timeEnd t ≤ s.ancillaryEnd t a := by
    simp only [Sent.ancillaryEnd, Sent.timeEnd]
    omega
  have hsecondary : (packet text t a s.header s.data).secondaryHeader =
      if s.ancillaryEnd t a ≠ 0 then
        some {
          timeCode := if s.timeEnd t ≠ 0 then some (text (s.data.subarray 0 (s.timeEnd t))) else none
          ancillaryData := if s.ancillaryEnd t a > s.timeEnd t then
            some (text (s.data.subarray (s.timeEnd t) (s.ancillaryEnd t a))) else none }
      else none := rfl
  by_cases h0 : s.ancillaryEnd t a = 0
  · have ht0 : s.timeEnd t = 0 := by omega
    rw [if_neg (by simpa using h0)] at hsecondary
    refine ⟨rfl, ?_, ?_, ?_, rfl⟩
    · simp [hsecondary, h0]
    · simp [hsecondary, ht0]
    · simp [hsecondary, h0, ht0]
  · rw [if_pos h0] at hsecondary
    refine ⟨rfl, ?_, ?_, ?_, rfl⟩
    · simp only [hsecondary, Option.isSome_some, true_iff]
      omega
    · simp [hsecondary]
    · by_cases heq : s.ancillaryEnd t a = s.timeEnd t
      · simp [hsecondary, heq]
      · have hlt : s.ancillaryEnd t a > s.timeEnd t := by omega
        simp [hsecondary, heq, hlt]

theorem next_encode (t a : ℕ) (s : Sent) : (cutter text t a).next s.encode =
    some (s.encode.length, some (packet text t a (readHeader s.encode) (s.encode.drop 6))) := by
  have hdl : (readHeader s.encode).dataLength = s.data.length := by
    rw [readHeader_encode]
    rfl
  have hlen : s.encode.length = 6 + s.data.length := by
    simp only [Sent.encode, bytes16, List.length_append, List.length_cons, List.length_nil]
  have hnext : (cutter text t a).next s.encode = _ := next_of_le text (t := t) (a := a) (x := s.encode) (by omega)
  rw [hnext, hdl, ← hlen, Buffer.subarray, List.take_of_length_le (by rw [List.length_drop])]

/-- **Space packets are decoded exactly.**  For every pair of field lengths that the constructor accepts, every list
of packets and every way of cutting their encodings into chunks, one object is pushed for each packet, in order, and
flush pushes an empty array. -/
theorem space_packets_decoded (options : SpacePacketOptions) (p : SpacePacketParser) (hp : create options = .ok p)
    (packets : List Sent) (chunks : List Buffer) (hchunks : chunks.flatten = (packets.map Sent.encode).flatten) :
    ((stream text).run p chunks).error = none ∧
      (∃ objects, ((stream text).run p chunks).pushed = objects.map .packet ∧
        List.Forall₂ (Decodes text options.timeCodeFieldLength.toNat options.ancillaryDataFieldLength.toNat)
          packets objects) ∧
      ((stream text).flush ((stream text).run p chunks).state).error = none ∧
      ((stream text).flush ((stream text).run p chunks).state).pushed = [.trailing []] := by
  obtain ⟨h1, h2, h3⟩ := run_spec text (create_holds hp) chunks
  generalize options.timeCodeFieldLength.toNat = t at h2 h3 ⊢
  generalize options.ancillaryDataFieldLength.toNat = a at h2 h3 ⊢
  have hwords : ∀ w ∈ packets.map Sent.encode,
      (cutter text t a).next w = some (w.length, some (packet text t a (readHeader w) (w.drop 6))) := by
    intro w hw
    obtain ⟨s, -, rfl⟩ := List.mem_map.1 hw
    exact next_encode text t a s
  have hnil : (cutter text t a).next [] = none := by
    change next text t a [] = none
    simp only [next]
    rw [if_pos (Or.inl (by simp))]
  rw [hchunks, Cutter.cut_flatten (f := fun w => packet text t a (readHeader w) (w.drop 6)) hwords hnil] at h2 h3
  have hflush : (stream text).flush ((stream text).run p chunks).state =
      ⟨{ ((stream text).run p chunks).state with bytes := {}, header := none }, [.trailing []], none⟩ := by
    have hbytes : ((stream text).run p chunks).state.bytes.bytes = [] := by
      cases hh : ((stream text).run p chunks).state.header with
      | none => exact h2.waiting hh
      | some header =>
        have := (h2.consumed header hh).1
        simp at this
    change flush _ = _
    simp only [flush, ByteQueue.take_all h2.bytes_wf, hbytes]
  refine ⟨h1, ⟨_, h3, ?_⟩, by rw [hflush], by rw [hflush]⟩
  rw [List.map_map, List.forall₂_map_right_iff, List.forall₂_same]
  intro s _
  have hdrop : s.encode.drop 6 = s.data := rfl
  simp only [Function.comp_apply, hdrop, readHeader_encode]
  exact packet_decodes text t a s

/-- A character that has begun: how many bytes are missing, between what the next one is, and the bits so far. -/
structure Begun where
  missing : ℕ
  lower : ℕ
  upper : ℕ
  bits : ℕ

/-- The first byte of a character, or U+FFFD. -/
def leadByte (byte : ℕ) : List Char × Option Begun :=
  if byte < 0x80 then ([Char.ofNat byte], none)
  else if 0xc2 ≤ byte ∧ byte < 0xe0 then ([], some ⟨1, 0x80, 0xbf, byte - 0xc0⟩)
  else if 0xe0 ≤ byte ∧ byte < 0xf0 then
    ([], some ⟨2, if byte = 0xe0 then 0xa0 else 0x80, if byte = 0xed then 0x9f else 0xbf, byte - 0xe0⟩)
  else if 0xf0 ≤ byte ∧ byte < 0xf5 then
    ([], some ⟨3, if byte = 0xf0 then 0x90 else 0x80, if byte = 0xf4 then 0x8f else 0xbf, byte - 0xf0⟩)
  else (['\uFFFD'], none)

/-- The characters of some bytes: what begins a character and does not end it becomes one U+FFFD. -/
def decodeUtf8 : Option Begun → Buffer → List Char
  | none, [] => []
  | some _, [] => ['\uFFFD']
  | none, byte :: bytes => (leadByte byte.toNat).1 ++ decodeUtf8 (leadByte byte.toNat).2 bytes
  | some c, byte :: bytes =>
    if c.lower ≤ byte.toNat ∧ byte.toNat ≤ c.upper then
      let bits := c.bits * 64 + (byte.toNat - 0x80)
      if c.missing = 1 then Char.ofNat bits :: decodeUtf8 none bytes
      else decodeUtf8 (some ⟨c.missing - 1, 0x80, 0xbf, bits⟩) bytes
    else '\uFFFD' :: ((leadByte byte.toNat).1 ++ decodeUtf8 (leadByte byte.toNat).2 bytes)

/-- `toString('utf8')`. -/
def toStringUtf8 (bytes : Buffer) : String := String.ofList (decodeUtf8 none bytes)

/-- A time code of one byte and ancillary data of two, the header cut in two. -/
theorem space_packets_decoded_split : ∃ p,
    create { timeCodeFieldLength := 1, ancillaryDataFieldLength := 2 } = .ok p ∧
    let r := (stream toStringUtf8).run p [[0x09, 0x23, 0xc0], [0x07, 0, 4, 0x54, 0x41], [0x42, 0x43, 0x44]]
    r.error = none ∧ ((stream toStringUtf8).flush r.state).pushed = [.trailing []] := by
  refine ⟨_, rfl, ?_⟩
  have h := space_packets_decoded toStringUtf8
    { timeCodeFieldLength := 1, ancillaryDataFieldLength := 2 } _ rfl
    [⟨0, 0, 1, 0x123, 3, 7, [0x54, 0x41, 0x42, 0x43, 0x44], by decide, by decide⟩]
    [[0x09, 0x23, 0xc0], [0x07, 0, 4, 0x54, 0x41], [0x42, 0x43, 0x44]] (by decide)
  exact ⟨h.1, h.2.2.2⟩

end

end SpacePacketParser

end NodeSerialport.Parsers
