import NodeSerialport.Parsers.Slip

/-!
# SLIP: the decoder over bytes, and the round trip

* `Reader` — the decoder as a machine over single bytes, with the bytes of the current frame;
* `byteLoop_spec`, `bulkLoop_spec`, `transform_spec`: both paths of the decoder read a chunk as the machine does;
* `readAll_encode`: the machine reads an encoded payload back;
* `slip_round_trip`: payloads encoded, concatenated, cut anywhere and decoded come out again.
-/

namespace NodeSerialport.Parsers

open NodeSerialport.Lib

/-! ### The decoder as a machine over bytes -/

/-- Where the decoder stands between two bytes. -/
structure Reader where
  started : Bool := false
  escaped : Bool := false
  pending : Buffer := []
  deriving DecidableEq, Repr

namespace Reader

variable (codes : Codes) (s : SlipSettings)

/-- Append a byte to the frame, where it has started. -/
def push (started : Bool) (pending : Buffer) (byte : UInt8) : Buffer :=
  if started then pending ++ [byte] else pending

/-- One byte: the next state and the frames it ends. -/
def read (r : Reader) (byte : UInt8) : Reader × List Buffer :=
  let started := s.START = none || r.started
  if r.escaped then
    match codes byte with
    | some code => (⟨started, false, push started r.pending code⟩, [])
    | none => (⟨started, false, push started [] byte⟩, [r.pending])
  else if s.START = some byte then (⟨true, false, r.pending⟩, [])
  else if byte = s.ESC then (⟨started, true, r.pending⟩, [])
  else if byte = s.END then (⟨false, false, []⟩, [r.pending])
  else (⟨started, false, push started r.pending byte⟩, [])

def readAll : Reader → Buffer → Reader × List Buffer
  | r, [] => (r, [])
  | r, byte :: rest =>
    let (r, frames) := read codes s r byte
    let (r, frames') := readAll r rest
    (r, frames ++ frames')

variable {codes s}

theorem readAll_cons (r : Reader) (byte : UInt8) (rest : Buffer) :
    readAll codes s r (byte :: rest) =
      ((readAll codes s (read codes s r byte).1 rest).1,
        (read codes s r byte).2 ++ (readAll codes s (read codes s r byte).1 rest).2) := rfl

theorem readAll_append (a b : Buffer) (r : Reader) :
    readAll codes s r (a ++ b) =
      ((readAll codes s (readAll codes s r a).1 b).1,
        (readAll codes s r a).2 ++ (readAll codes s (readAll codes s r a).1 b).2) := by
  induction a generalizing r with
  | nil => simp [readAll]
  | cons byte a ih => rw [List.cons_append, readAll_cons, readAll_cons, ih, List.append_assoc]

/-- Without a start marker, bytes that are neither `ESC` nor `END` only extend the frame. -/
theorem readAll_plain (codes : Codes) (hS : s.START = none) (b : Buffer) (hESC : s.ESC ∉ b) (hEND : s.END ∉ b) (r : Reader)
    (hr : r.escaped = false) :
    ∃ started, readAll codes s r b = (⟨started, false, r.pending ++ b⟩, []) := by
  induction b generalizing r with
  | nil =>
    refine ⟨r.started, ?_⟩
    rw [List.append_nil, ← hr]
    rfl
  | cons byte b ih =>
    have h1 : byte ≠ s.ESC := fun h => hESC (by rw [h]; exact List.mem_cons_self ..)
    have h2 : byte ≠ s.END := fun h => hEND (by rw [h]; exact List.mem_cons_self ..)
    have hread : read codes s r byte = (⟨true, false, r.pending ++ [byte]⟩, []) := by
      simp [read, push, hS, hr, h1, h2]
    obtain ⟨started, h⟩ := ih (fun h => hESC (List.mem_cons_of_mem _ h)) (fun h => hEND (List.mem_cons_of_mem _ h))
      ⟨true, false, r.pending ++ [byte]⟩ rfl
    refine ⟨started, ?_⟩
    rw [readAll_cons, hread, h]
    simp

end Reader

/-! ### The decoder reads as the machine does -/

namespace SlipDecoder

/-- `d` is the decoder of `s`, without a limit. -/
structure Config (s : SlipSettings) (d : SlipDecoder) : Prop where
  options : d.options = s
  codes : d.codes = (new s none).codes
  unlimited : d.maxFrameLength = none
  wf : d.bytes.WF

/-- `d` stands where the machine stands, `tail` being decoded but not queued yet.  Without a start marker the flag
`started` is set before it is read. -/
structure At (s : SlipSettings) (d : SlipDecoder) (tail : Buffer) (r : Reader) : Prop extends Config s d where
  pending : d.bytes.bytes ++ tail = r.pending
  escaped : d.escaped = r.escaped
  started : s.START ≠ none → d.started = r.started

variable {s : SlipSettings} {d : SlipDecoder} {r : Reader} {tail : Buffer}

theorem Config.append (h : Config s d) (buffer : Buffer) :
    d.append buffer = some { d with bytes := d.bytes.append buffer } := by
  simp [SlipDecoder.append, h.unlimited]

theorem Config.emit (h : Config s d) (buffer : Buffer) :
    d.emit buffer = .ok (d.bytes.bytes ++ buffer, { d with bytes := {} }) := by
  obtain ⟨hq, hb⟩ := ByteQueue.append_spec h.wf buffer
  simp only [SlipDecoder.emit, h.append, ByteQueue.take_all hq, hb]

theorem At.finish (h : At s d tail r) :
    (d.finish tail).error = none ∧ (d.finish tail).pushed = [] ∧ At s (d.finish tail).state [] r := by
  obtain ⟨hq, hb⟩ := ByteQueue.append_spec h.wf tail
  simp only [SlipDecoder.finish, h.toConfig.append]
  refine ⟨trivial, trivial, ⟨⟨h.options, h.codes, h.unlimited, hq⟩, ?_, h.escaped, h.started⟩⟩
  rw [List.append_nil, hb]
  exact h.pending

theorem At.start (h : At s d tail r) :
    At s (if d.options.START = none then { d with started := true } else d) tail r ∧
      (if d.options.START = none then { d with started := true } else d).started =
        (decide (s.START = none) || r.started) := by
  have hopt := h.options
  by_cases hS : s.START = none
  · rw [if_pos (by rw [hopt]; exact hS)]
    refine ⟨⟨⟨h.options, h.codes, h.unlimited, h.wf⟩, h.pending, h.escaped, fun hn => absurd hS hn⟩, ?_⟩
    simp [hS]
  · rw [if_neg (by rw [hopt]; exact hS)]
    refine ⟨h, ?_⟩
    simp [hS, h.started hS]

/-- What reading `rest` from `r` must lead to. -/
def Reads (s : SlipSettings) (o : Outcome SlipDecoder Buffer ParserError) (r : Reader) (rest : Buffer) : Prop :=
  o.error = none ∧ o.pushed = (r.readAll (new s none).codes s rest).2 ∧
    At s o.state [] (r.readAll (new s none).codes s rest).1

theorem Reads.cons {o : Outcome SlipDecoder Buffer ParserError} {r' : Reader} {byte : UInt8} {rest : Buffer}
    (hread : r.read (new s none).codes s byte = (r', [])) (h : Reads s o r' rest) : Reads s o r (byte :: rest) := by
  obtain ⟨h1, h2, h3⟩ := h
  refine ⟨h1, ?_, ?_⟩
  · rw [Reader.readAll_cons, hread, h2, List.nil_append]
  · rw [Reader.readAll_cons, hread]
    exact h3

theorem Reads.cons_pushed {o : Outcome SlipDecoder Buffer ParserError} {r' : Reader} {byte : UInt8}
    {rest frame : Buffer} (hread : r.read (new s none).codes s byte = (r', [frame])) (h : Reads s o r' rest) :
    Reads s (pushed frame o) r (byte :: rest) := by
  obtain ⟨h1, h2, h3⟩ := h
  refine ⟨h1, ?_, ?_⟩
  · rw [Reader.readAll_cons, hread, ← List.singleton_append, ← h2]
    rfl
  · rw [Reader.readAll_cons, hread]
    exact h3

/-- **The byte loop reads as the machine does.**  The current frame is what is queued and what has been decoded from
this chunk since `frameStart`. -/
theorem byteLoop_spec (rest : Buffer) : ∀ (d : SlipDecoder) (decoded : Buffer) (frameStart : ℕ) (r : Reader),
    frameStart ≤ decoded.length → At s d (decoded.drop frameStart) r →
    Reads s (d.byteLoop decoded frameStart rest) r rest := by
  induction rest with
  | nil =>
    intro d decoded frameStart r _ h
    exact h.finish
  | cons byte rest ih =>
    intro d decoded frameStart r hle h
    obtain ⟨hat, hstarted⟩ := h.start
    simp only [byteLoop]
    generalize (if d.options.START = none then { d with started := true } else d) = d at hat hstarted ⊢
    have hpush : ∀ value : UInt8, d.bytes.bytes ++
        (if d.started then decoded ++ [value] else decoded).drop frameStart =
          Reader.push (decide (s.START = none) || r.started) r.pending value := by
      intro value
      rw [← hstarted, Reader.push, ← hat.pending]
      split
      · rw [List.drop_append_of_le_length hle, List.append_assoc]
      · rfl
    have hle' : ∀ value : UInt8, frameStart ≤ (if d.started then decoded ++ [value] else decoded).length := by
      intro value
      split
      · rw [List.length_append]
        omega
      · exact hle
    by_cases hesc : d.escaped = true
    · have hresc : r.escaped = true := by rw [← hat.escaped, hesc]
      rw [if_pos hesc]
      cases hcode : d.codes byte with
      | some code =>
        have hread : r.read (new s none).codes s byte = (⟨decide (s.START = none) || r.started, false,
            Reader.push (decide (s.START = none) || r.started) r.pending code⟩, []) := by
          simp [Reader.read, hresc, ← hat.codes, hcode]
        refine Reads.cons hread (ih _ _ _ _ (hle' code) ?_)
        exact ⟨⟨hat.options, hat.codes, hat.unlimited, hat.wf⟩, hpush code, rfl, fun _ => hstarted⟩
      | none =>
        have hread : r.read (new s none).codes s byte = (⟨decide (s.START = none) || r.started, false,
            Reader.push (decide (s.START = none) || r.started) [] byte⟩, [r.pending]) := by
          simp [Reader.read, hresc, ← hat.codes, hcode]
        have hcfg : Config s { d with escaped := false } := ⟨hat.options, hat.codes, hat.unlimited, hat.wf⟩
        simp only [hcfg.emit, hat.pending]
        refine Reads.cons_pushed hread (ih _ _ _ _ ?_ ?_)
        · split
          · rw [List.length_append]
            omega
          · exact le_rfl
        · refine ⟨⟨hat.options, hat.codes, hat.unlimited, ByteQueue.wf_empty⟩, ?_, rfl, fun _ => hstarted⟩
          rw [← hstarted, Reader.push, ByteQueue.bytes_empty, List.nil_append]
          split
          · rw [List.drop_left, List.nil_append]
          · rw [List.drop_length]
    · have hresc : r.escaped = false := by rw [← hat.escaped]; simpa using hesc
      rw [if_neg hesc, hat.options]
      by_cases hS : s.START = some byte
      · rw [if_pos hS]
        have hread : r.read (new s none).codes s byte = (⟨true, false, r.pending⟩, []) := by
          simp [Reader.read, hresc, hS]
        refine Reads.cons hread (ih _ _ _ _ hle ?_)
        exact ⟨⟨rfl, hat.codes, hat.unlimited, hat.wf⟩, hat.pending, by rw [hat.escaped, hresc],
          fun _ => rfl⟩
      · rw [if_neg hS]
        by_cases hE : byte = s.ESC
        · rw [if_pos hE]
          have hread : r.read (new s none).codes s byte =
              (⟨decide (s.START = none) || r.started, true, r.pending⟩, []) := by
            rw [hE] at hS ⊢
            simp [Reader.read, hresc, hS]
          refine Reads.cons hread (ih _ _ _ _ hle ?_)
          exact ⟨⟨rfl, hat.codes, hat.unlimited, hat.wf⟩, hat.pending, rfl, fun _ => hstarted⟩
        · rw [if_neg hE]
          by_cases hEND : byte = s.END
          · rw [if_pos hEND]
            have hread : r.read (new s none).codes s byte = (⟨false, false, []⟩, [r.pending]) := by
              rw [hEND] at hS hE ⊢
              simp [Reader.read, hresc, hS, hE]
            simp only [hat.toConfig.emit, hat.pending]
            refine Reads.cons_pushed hread (ih _ _ _ _ le_rfl ?_)
            refine ⟨⟨hat.options, hat.codes, hat.unlimited, ByteQueue.wf_empty⟩, ?_, by rw [hat.escaped, hresc],
              fun _ => rfl⟩
            rw [List.drop_length]
            rfl
          · rw [if_neg hEND]
            have hread : r.read (new s none).codes s byte = (⟨decide (s.START = none) || r.started, false,
                Reader.push (decide (s.START = none) || r.started) r.pending byte⟩, []) := by
              simp [Reader.read, hresc, hS, hE, hEND]
            refine Reads.cons hread (ih _ _ _ _ (hle' byte) ?_)
            exact ⟨⟨hat.options, hat.codes, hat.unlimited, hat.wf⟩, hpush byte, by rw [hat.escaped, hresc],
              fun _ => hstarted⟩

theorem subarray_append_drop {b : Buffer} {offset stop : ℕ} (h : offset ≤ stop) :
    Buffer.subarray b offset stop ++ b.drop stop = b.drop offset := by
  rw [Buffer.subarray]
  conv_rhs => rw [← List.take_append_drop (stop - offset) (b.drop offset)]
  rw [List.drop_drop, Nat.add_sub_cancel' h]

/-- What a search finds: the value is at the index reported, and not before it. -/
theorem indexOf_eq_some {b : Buffer} {value : UInt8} {offset stop : ℕ} (h : Buffer.indexOf b value offset = some stop) :
    b.drop offset = Buffer.subarray b offset stop ++ value :: b.drop (stop + 1) ∧
      value ∉ Buffer.subarray b offset stop := by
  obtain ⟨h1, h2⟩ := indexOf_bounds h
  simp only [Buffer.indexOf, Option.map_eq_some_iff] at h
  obtain ⟨k, hk, rfl⟩ := h
  obtain ⟨hk, hval, hbefore⟩ := List.findIdx?_eq_some_iff_getElem.1 hk
  rw [List.getElem_drop] at hval
  have hv : b[k + offset] = value := by
    rw [← beq_iff_eq]
    convert hval using 2
    simp [Nat.add_comm]
  refine ⟨?_, ?_⟩
  · rw [← subarray_append_drop h1, List.drop_eq_getElem_cons h2, hv]
  · intro hmem
    rw [Buffer.subarray, Nat.add_sub_cancel] at hmem
    obtain ⟨j, hj, hjv⟩ := List.getElem_of_mem hmem
    rw [List.length_take] at hj
    rw [List.getElem_take] at hjv
    have := hbefore j (by omega)
    rw [hjv] at this
    simp at this

theorem indexOf_eq_none_iff {b : Buffer} {value : UInt8} {offset : ℕ} :
    Buffer.indexOf b value offset = none ↔ value ∉ b.drop offset := by
  simp only [Buffer.indexOf, Option.map_eq_none_iff, List.findIdx?_eq_none_iff]
  constructor
  · intro h hmem
    simpa using h value hmem
  · intro h x hx
    rw [beq_eq_false_iff_ne]
    rintro rfl
    exact h hx

/-- **The bulk path reads as the machine does.** -/
theorem bulkLoop_spec (hS : s.START = none) : ∀ (n : ℕ) (d : SlipDecoder) (chunk : Buffer) (offset : ℕ) (r : Reader),
    chunk.length - offset = n → At s d [] r → r.escaped = false → s.ESC ∉ chunk →
    Reads s (d.bulkLoop chunk offset) r (chunk.drop offset) := by
  intro n
  induction n using Nat.strong_induction_on with
  | _ n ih =>
    intro d chunk offset r hn h hr hESC
    have hpend : d.bytes.bytes = r.pending := by
      rw [← h.pending, List.append_nil]
    have hnot : ∀ {b : Buffer}, b <:+: chunk → s.ESC ∉ b := fun hb hmem => hESC (hb.subset hmem)
    rw [bulkLoop]
    split
    · rename_i hidx
      rw [h.options] at hidx
      obtain ⟨started, hall⟩ := Reader.readAll_plain (new s none).codes hS (chunk.drop offset)
        (hnot (List.drop_suffix _ _).isInfix) (indexOf_eq_none_iff.1 hidx) r hr
      have hat : At s d (chunk.drop offset) ⟨started, false, r.pending ++ chunk.drop offset⟩ :=
        ⟨h.toConfig, by rw [hpend], by rw [h.escaped, hr], fun hne => absurd hS hne⟩
      unfold Reads
      rw [hall]
      exact hat.finish
    · rename_i stop hidx
      rw [h.options] at hidx
      obtain ⟨hsplit, hEND⟩ := indexOf_eq_some hidx
      have hb := indexOf_bounds hidx
      obtain ⟨started, hall⟩ := Reader.readAll_plain (new s none).codes hS
        (Buffer.subarray chunk offset stop)
        (hnot ((List.take_prefix _ _).isInfix.trans (List.drop_suffix _ _).isInfix)) hEND r hr
      have hne : s.END ≠ s.ESC := by
        intro he
        refine hnot (List.drop_suffix offset chunk).isInfix ?_
        rw [hsplit, ← he]
        simp
      have hread : Reader.read (new s none).codes s ⟨started, false, r.pending ++ Buffer.subarray chunk offset stop⟩
          s.END = (⟨false, false, []⟩, [r.pending ++ Buffer.subarray chunk offset stop]) := by
        simp [Reader.read, hS, hne]
      simp only [h.toConfig.emit, hpend]
      obtain ⟨i1, i2, i3⟩ := ih (chunk.length - (stop + 1)) (by omega) { d with bytes := {} } chunk (stop + 1)
        ⟨false, false, []⟩ rfl
        ⟨⟨h.options, h.codes, h.unlimited, ByteQueue.wf_empty⟩, rfl, by rw [h.escaped, hr],
          fun hne => absurd hS hne⟩ rfl hESC
      unfold Reads
      rw [hsplit, Reader.readAll_append, hall, Reader.readAll_cons, hread]
      exact ⟨i1, by rw [List.nil_append, ← i2]; rfl, i3⟩

/-- One call of `_transform`, whichever path it takes. -/
theorem transform_spec (h : At s d [] r) (chunk : Buffer) : Reads s (d.transform chunk) r chunk := by
  unfold transform
  split
  · rename_i hc
    obtain ⟨-, hS, hesc, hESC⟩ := hc
    rw [h.options] at hS hESC
    have := bulkLoop_spec hS _ d chunk 0 r rfl h (by rw [← h.escaped, hesc])
      (by simpa using indexOf_eq_none_iff.1 hESC)
    rwa [List.drop_zero] at this
  · exact byteLoop_spec chunk d [] 0 r le_rfl h

/-- **Decoding depends only on the byte stream** (without a limit): over any chunks, flush included, the decoder
pushes the frames that the machine reads from their concatenation, and its pending bytes. -/
theorem runEnd_spec (s : SlipSettings) (chunks : List Buffer) :
    (stream.run (new s none) chunks).error = none ∧
    (stream.run (new s none) chunks).pushed = (Reader.readAll (new s none).codes s {} chunks.flatten).2 ∧
    (stream.flush (stream.run (new s none) chunks).state).error = none ∧
    (stream.flush (stream.run (new s none) chunks).state).pushed =
      [(Reader.readAll (new s none).codes s {} chunks.flatten).1.pending] := by
  let R : List UInt8 → List Buffer → SlipDecoder → Prop := fun x out d =>
    out = (Reader.readAll (new s none).codes s {} x).2 ∧ At s d [] (Reader.readAll (new s none).codes s {} x).1
  have hR₀ : R [] [] (new s none) :=
    ⟨rfl, ⟨⟨rfl, rfl, rfl, ByteQueue.wf_empty⟩, rfl, rfl, fun _ => rfl⟩⟩
  have hstep : ∀ x out d c, R x out d → (stream.transform d c).error = none ∧
      R (x ++ c) (out ++ (stream.transform d c).pushed) (stream.transform d c).state := by
    rintro x out d c ⟨rfl, hat⟩
    obtain ⟨h1, h2, h3⟩ := transform_spec hat c
    change (d.transform c).error = none ∧ R (x ++ c) (_ ++ (d.transform c).pushed) (d.transform c).state
    refine ⟨h1, ?_, ?_⟩
    · rw [Reader.readAll_append, h2]
    · rw [Reader.readAll_append]
      exact h3
  obtain ⟨hok, hpushed, hat⟩ := Transform.run_rule R hstep hR₀ chunks
  rw [List.nil_append] at hpushed hat
  have hflush : stream.flush (stream.run (new s none) chunks).state =
      ⟨{ (stream.run (new s none) chunks).state with bytes := {} },
        [(Reader.readAll (new s none).codes s {} chunks.flatten).1.pending], none⟩ := by
    have hpend := hat.pending
    rw [List.append_nil] at hpend
    change SlipDecoder.flush _ = _
    simp only [SlipDecoder.flush, ByteQueue.take_all hat.wf, hpend]
  rw [hflush]
  exact ⟨hok, hpushed, rfl, rfl⟩

end SlipDecoder

/-! ### The round trip -/

/-- The markers are pairwise distinct, a start marker has an escape code, and the escape codes in use are pairwise
distinct. -/
structure SlipSettings.Distinct (s : SlipSettings) : Prop where
  END_ne_ESC : s.END ≠ s.ESC
  START_ne : s.START ≠ some s.END ∧ s.START ≠ some s.ESC
  START_code : s.START ≠ none → s.ESC_START ≠ none
  ESC_END_ne : s.ESC_END ≠ s.ESC_ESC
  ESC_START_ne : s.START ≠ none → s.ESC_START ≠ some s.ESC_END ∧ s.ESC_START ≠ some s.ESC_ESC

instance (s : SlipSettings) : Decidable s.Distinct :=
  decidable_of_iff (s.END ≠ s.ESC ∧ (s.START ≠ some s.END ∧ s.START ≠ some s.ESC) ∧
      (s.START ≠ none → s.ESC_START ≠ none) ∧ s.ESC_END ≠ s.ESC_ESC ∧
      (s.START ≠ none → s.ESC_START ≠ some s.ESC_END ∧ s.ESC_START ≠ some s.ESC_ESC))
    ⟨fun ⟨h1, h2, h3, h4, h5⟩ => ⟨h1, h2, h3, h4, h5⟩, fun ⟨h1, h2, h3, h4, h5⟩ => ⟨h1, h2, h3, h4, h5⟩⟩

namespace SlipSettings.Distinct

variable {s : SlipSettings} (h : s.Distinct)
include h

theorem codes_inverse {byte code : UInt8} (hc : (SlipEncoder.new s).codes byte = some code) :
    (SlipDecoder.new s none).codes code = some byte := by
  obtain ⟨h1, ⟨h2, h3⟩, h4, h5, h6⟩ := h
  cases hS : s.START with
  | none =>
    simp only [SlipEncoder.new, SlipDecoder.new, hS, Codes.set, Function.update_apply] at hc ⊢
    split at hc
    · rename_i hb
      obtain rfl := Option.some.inj hc
      simp [h5, hb]
    · split at hc
      · rename_i hb
        obtain rfl := Option.some.inj hc
        simp [hb]
      · cases hc
  | some START =>
    cases hE : s.ESC_START with
    | none => exact absurd hE (h4 (by simp [hS]))
    | some ESC_START =>
      simp only [hS, hE, ne_eq, reduceCtorEq, not_false_eq_true, Option.some.injEq, forall_const] at h2 h3 h6
      simp only [SlipEncoder.new, SlipDecoder.new, hS, hE, Codes.set, Function.update_apply] at hc ⊢
      split at hc
      · rename_i hb
        obtain rfl := Option.some.inj hc
        simp [hb]
      · split at hc
        · rename_i hb
          obtain rfl := Option.some.inj hc
          simp [h5, hb, Ne.symm h6.1]
        · split at hc
          · rename_i hb
            obtain rfl := Option.some.inj hc
            simp [hb, Ne.symm h6.2]
          · cases hc

theorem not_marker {byte : UInt8} (hc : (SlipEncoder.new s).codes byte = none) :
    s.START ≠ some byte ∧ byte ≠ s.ESC ∧ byte ≠ s.END := by
  cases hS : s.START with
  | none =>
    simp only [SlipEncoder.new, hS, Codes.set, Function.update_apply] at hc
    split at hc
    · cases hc
    · split at hc
      · cases hc
      · exact ⟨by simp, by assumption, by assumption⟩
  | some START =>
    cases hE : s.ESC_START with
    | none => exact absurd hE (h.START_code (by simp [hS]))
    | some ESC_START =>
      simp only [SlipEncoder.new, hS, hE, Codes.set, Function.update_apply] at hc
      split at hc
      · cases hc
      · split at hc
        · cases hc
        · split at hc
          · cases hc
          · rename_i hb _ _
            exact ⟨by simpa using Ne.symm hb, by assumption, by assumption⟩

theorem readAll_escape (payload : Buffer) (r : Reader) (hr : r.escaped = false)
    (hstarted : s.START ≠ none → r.started = true) :
    ∃ started, (s.START ≠ none → started = true) ∧
      r.readAll (SlipDecoder.new s none).codes s (payload.flatMap (SlipEncoder.new s).escape) =
        (⟨started, false, r.pending ++ payload⟩, []) := by
  induction payload generalizing r with
  | nil =>
    refine ⟨r.started, hstarted, ?_⟩
    rw [List.flatMap_nil, List.append_nil, ← hr]
    rfl
  | cons byte payload ih =>
    have hst : (decide (s.START = none) || r.started) = true := by
      by_cases hS : s.START = none
      · simp [hS]
      · simp [hstarted hS]
    have hone : r.readAll (SlipDecoder.new s none).codes s ((SlipEncoder.new s).escape byte) =
        (⟨true, false, r.pending ++ [byte]⟩, []) := by
      cases hc : (SlipEncoder.new s).codes byte with
      | none =>
        obtain ⟨h1, h2, h3⟩ := h.not_marker hc
        simp only [SlipEncoder.escape, hc, Reader.readAll, Reader.read, hr, Bool.false_eq_true, if_false, h1, h2, h3,
          hst, Reader.push, if_true, List.append_nil]
      | some code =>
        have hinv := h.codes_inverse hc
        have hopt : (SlipEncoder.new s).options.ESC = s.ESC := rfl
        simp only [SlipEncoder.escape, hc, hopt, Reader.readAll, Reader.read, hr, Bool.false_eq_true, if_false,
          h.START_ne.2, if_true, hst, Bool.or_true, hinv, Reader.push, List.append_nil]
    obtain ⟨started, hs, hrec⟩ := ih ⟨true, false, r.pending ++ [byte]⟩ rfl (fun _ => rfl)
    refine ⟨started, hs, ?_⟩
    rw [List.flatMap_cons, Reader.readAll_append, hone, hrec]
    simp

/-- **The machine reads an encoded payload back**, with an empty frame before it where the encoder writes a leading
`END`. -/
theorem readAll_encode (payload : Buffer) (r : Reader) (hr : r.escaped = false) (hp : r.pending = []) :
    r.readAll (SlipDecoder.new s none).codes s ((SlipEncoder.new s).encode payload) =
      (⟨false, false, []⟩, (if s.bluetoothQuirk then [[]] else []) ++ [payload]) := by
  have hEND : ∀ r : Reader, r.escaped = false →
      r.readAll (SlipDecoder.new s none).codes s [s.END] = (⟨false, false, []⟩, [r.pending]) := by
    intro r hr
    simp [Reader.readAll, Reader.read, hr, h.START_ne.1, h.END_ne_ESC]
  -- the leading `END`
  obtain ⟨r₁, h1, hr₁, hp₁⟩ : ∃ r₁ : Reader, r.readAll (SlipDecoder.new s none).codes s
      (if s.bluetoothQuirk then [s.END] else []) = (r₁, if s.bluetoothQuirk then [[]] else []) ∧
        r₁.escaped = false ∧ r₁.pending = [] := by
    cases s.bluetoothQuirk with
    | true =>
      refine ⟨⟨false, false, []⟩, ?_, rfl, rfl⟩
      rw [if_pos rfl, hEND r hr, hp]
      rfl
    | false => exact ⟨r, rfl, hr, hp⟩
  -- the start marker
  obtain ⟨r₂, h2, hr₂, hp₂, hst⟩ : ∃ r₂ : Reader, r₁.readAll (SlipDecoder.new s none).codes s s.START.toList = (r₂, []) ∧
      r₂.escaped = false ∧ r₂.pending = [] ∧ (s.START ≠ none → r₂.started = true) := by
    cases hS : s.START with
    | none => exact ⟨r₁, rfl, hr₁, hp₁, fun h => absurd rfl h⟩
    | some START =>
      refine ⟨⟨true, false, []⟩, ?_, rfl, rfl, fun _ => rfl⟩
      simp [Reader.readAll, Reader.read, hr₁, hS, hp₁]
  obtain ⟨started, -, h3⟩ := h.readAll_escape payload r₂ hr₂ hst
  have hopt : (SlipEncoder.new s).options = s := rfl
  unfold SlipEncoder.encode
  rw [hopt, Reader.readAll_append, Reader.readAll_append, Reader.readAll_append, h1, h2, h3, hEND _ rfl, hp₂]
  simp

end SlipSettings.Distinct

namespace SlipEncoder

theorem run_pushed (s : SlipSettings) (memory : ℕ → ℕ → UInt8) (payloads : List Buffer) (n : ℕ) :
    (((new s).stream memory).run n payloads).pushed.flatten =
      (payloads.map fun payload =>
        if s.bluetoothQuirk && payload.length = 0 then [] else (new s).encode payload).flatten := by
  induction payloads generalizing n with
  | nil => rfl
  | cons payload payloads ih =>
    have hok : (((new s).stream memory).transform n payload).error = none := rfl
    rw [Transform.run_cons_of_ok hok]
    change (transform (memory n) (new s) payload ++ (((new s).stream memory).run (n + 1) payloads).pushed).flatten = _
    rw [transform_eq, List.flatten_append, ih, List.map_cons, List.flatten_cons]
    congr 1
    split
    · rfl
    · simp

end SlipEncoder

/-- The machine reads a whole encoded list back, empty frames aside. -/
theorem readAll_payloads {s : SlipSettings} (h : s.Distinct) (payloads : List Buffer) (r : Reader)
    (hr : r.escaped = false) (hp : r.pending = []) :
    ∃ started, (r.readAll (SlipDecoder.new s none).codes s (payloads.map fun payload =>
        if s.bluetoothQuirk && payload.length = 0 then [] else (SlipEncoder.new s).encode payload).flatten).1 =
          ⟨started, false, []⟩ ∧
      (r.readAll (SlipDecoder.new s none).codes s (payloads.map fun payload =>
        if s.bluetoothQuirk && payload.length = 0 then [] else (SlipEncoder.new s).encode payload).flatten).2.filter
          (· ≠ []) = payloads.filter (· ≠ []) := by
  induction payloads generalizing r with
  | nil =>
    refine ⟨r.started, ?_, rfl⟩
    rw [← hr, ← hp]
    rfl
  | cons payload payloads ih =>
    rw [List.map_cons, List.flatten_cons, Reader.readAll_append]
    by_cases hq : (s.bluetoothQuirk && decide (payload.length = 0)) = true
    · -- an empty payload is not sent at all
      have hempty : payload = [] := by
        simp only [Bool.and_eq_true, decide_eq_true_eq] at hq
        exact List.length_eq_zero_iff.1 hq.2
      obtain ⟨started, h1, h2⟩ := ih r hr hp
      rw [if_pos hq]
      refine ⟨started, h1, ?_⟩
      rw [hempty]
      simpa [Reader.readAll] using h2
    · rw [if_neg hq, h.readAll_encode payload r hr hp]
      obtain ⟨started, h1, h2⟩ := ih ⟨false, false, []⟩ rfl rfl
      refine ⟨started, h1, ?_⟩
      rw [List.filter_append, h2]
      cases s.bluetoothQuirk <;> by_cases hp : payload = [] <;> simp [hp]

/-- **Frames round-trip through SLIP.**  For all settings whose codes are distinct as far as they are in use, with or
without `bluetoothQuirk`, whatever the memory the encoder is given, for every list of payloads and every way of
cutting what the encoder emits into chunks, the decoder reports no error, pushes the nonempty payloads in order
(empty pushes aside), and its flush pushes no bytes. -/
theorem slip_round_trip (s : SlipSettings) (h : s.Distinct) (memory : ℕ → ℕ → UInt8) (payloads chunks : List Buffer)
    (hcut : chunks.flatten = (((SlipEncoder.new s).stream memory).run 0 payloads).pushed.flatten) :
    (SlipDecoder.stream.run (SlipDecoder.new s none) chunks).error = none ∧
    (SlipDecoder.stream.run (SlipDecoder.new s none) chunks).pushed.filter (· ≠ []) = payloads.filter (· ≠ []) ∧
    (SlipDecoder.stream.flush (SlipDecoder.stream.run (SlipDecoder.new s none) chunks).state).error = none ∧
    (SlipDecoder.stream.flush (SlipDecoder.stream.run (SlipDecoder.new s none) chunks).state).pushed.flatten = [] := by
  obtain ⟨hok, hpushed, hferr, hflush⟩ := SlipDecoder.runEnd_spec s chunks
  rw [hcut, SlipEncoder.run_pushed] at hpushed hflush
  obtain ⟨started, h1, h2⟩ := readAll_payloads h payloads {} rfl rfl
  refine ⟨hok, by rw [hpushed, h2], hferr, ?_⟩
  rw [hflush, h1]
  rfl

/-- A start marker that is also the escape code of `END`, cut inside an escape pair. -/
theorem slip_round_trip_markers :
    let options : SlipOptions := { START := some 0xdc, ESC_START := some 0xde, bluetoothQuirk := true }
    ∃ e d, SlipEncoder.create options = .ok e ∧ SlipDecoder.create options = .ok d ∧
      ((e.stream fun _ _ => 0).run 0 [[], [1, 0xc0, 0xdc]]).pushed.flatten = [0xc0, 0xdc, 1, 0xdb, 0xdc, 0xdb, 0xde, 0xc0] ∧
      (SlipDecoder.stream.run d [[0xc0, 0xdc, 1, 0xdb], [0xdc, 0xdb, 0xde, 0xc0]]).pushed.filter (· ≠ []) = [[1, 0xc0, 0xdc]] := by
  intro options
  let s : SlipSettings := { START := some 0xdc, ESC_START := some 0xde, bluetoothQuirk := true }
  have hsettings : settings options = .ok s := rfl
  have hpushed : (((SlipEncoder.new s).stream fun _ _ => 0).run 0 [[], [1, 0xc0, 0xdc]]).pushed.flatten =
      [0xc0, 0xdc, 1, 0xdb, 0xdc, 0xdb, 0xde, 0xc0] := by
    rw [SlipEncoder.run_pushed]
    decide
  obtain ⟨-, h, -⟩ := slip_round_trip s (by decide) (fun _ _ => 0) [[], [1, 0xc0, 0xdc]]
    [[0xc0, 0xdc, 1, 0xdb], [0xdc, 0xdb, 0xde, 0xc0]] hpushed.symm
  exact ⟨_, _, SlipEncoder.create_eq_ok.2 ⟨s, hsettings, rfl⟩, SlipDecoder.create_eq_ok.2 ⟨s, none, hsettings, rfl, rfl⟩,
    hpushed, h⟩

end NodeSerialport.Parsers
