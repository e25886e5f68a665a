import NodeSerialport.Parsers.PacketLength

/-!
# `PacketLengthParser`: any input

On input that is no concatenation of packets the parser finds its way back.  What it pushes is said here in terms of
offsets of the whole input, without the parser.

* `DelimiterAt`, `FirstAt` — a delimiter at an offset, and the first one from an offset on;
* `Framing f x start frames tail` — the frames of the input `x` from `start` on, and the bytes after them;
* `framing_cut`: what the parser's decisions cut an input into;
* `packet_length_resync`: whole streams.
-/

namespace NodeSerialport.Parsers

open NodeSerialport.Lib

namespace PacketFormat

variable (f : PacketFormat) (x : Buffer)

/-- A delimiter stands at an offset. -/
def DelimiterAt (i : ℕ) : Prop :=
  i + f.delimiterBytes ≤ x.length ∧ (Buffer.readUIntBE x i f.delimiterBytes : ℤ) ∈ f.delimiters

instance (i : ℕ) : Decidable (f.DelimiterAt x i) := inferInstanceAs (Decidable (_ ∧ _))

/-- The first delimiter at or after an offset. -/
structure FirstAt (start i : ℕ) : Prop where
  le : start ≤ i
  delimiter : f.DelimiterAt x i
  first : ∀ j, start ≤ j → j < i → ¬ f.DelimiterAt x j

/-- The length of the frame at an offset, by its length field. -/
def frameLength (i : ℕ) : ℕ :=
  let length := Buffer.readUIntLE x (i + f.lengthOffset) f.lengthBytes
  if length > f.maxLen then f.headerLength else max f.headerLength (length + f.packetOverhead)

/-- The frames of an input from an offset on, and what is left behind them: a frame that has not arrived whole, or
bytes too few for a delimiter. -/
inductive Framing : ℕ → List Buffer → Buffer → Prop
  | frame {start i : ℕ} {frames : List Buffer} {tail : Buffer} (first : f.FirstAt x start i)
      (arrived : i + f.frameLength x i ≤ x.length) (later : Framing (i + f.frameLength x i) frames tail) :
    Framing start (x.subarray i (i + f.frameLength x i) :: frames) tail
  | incomplete {start i : ℕ} (first : f.FirstAt x start i) (missing : x.length < i + f.frameLength x i) :
    Framing start [] (x.drop i)
  | skipped {start : ℕ} (none : ∀ i, start ≤ i → ¬ f.DelimiterAt x i) :
    Framing start [] (x.drop (max start (x.length + 1 - f.delimiterBytes)))

variable {f x}

theorem FirstAt.unique {start i j : ℕ} (h : f.FirstAt x start i) (h' : f.FirstAt x start j) : i = j := by
  rcases Nat.lt_trichotomy i j with hlt | heq | hlt
  · exact absurd h.delimiter (h'.first i h.le hlt)
  · exact heq
  · exact absurd h'.delimiter (h.first j h'.le hlt)

/-- **The frames of an input are determined.** -/
theorem Framing.unique {start : ℕ} {frames frames' : List Buffer} {tail tail' : Buffer}
    (h : f.Framing x start frames tail) (h' : f.Framing x start frames' tail') : frames = frames' ∧ tail = tail' := by
  induction h generalizing frames' tail' with
  | frame first arrived later ih =>
    cases h' with
    | frame first' arrived' later' =>
      obtain rfl := first.unique first'
      obtain ⟨rfl, rfl⟩ := ih later'
      exact ⟨rfl, rfl⟩
    | incomplete first' missing =>
      obtain rfl := first.unique first'
      omega
    | skipped none => exact absurd first.delimiter (none _ first.le)
  | incomplete first missing =>
    cases h' with
    | frame first' arrived =>
      obtain rfl := first.unique first'
      omega
    | incomplete first' =>
      obtain rfl := first.unique first'
      exact ⟨rfl, rfl⟩
    | skipped none => exact absurd first.delimiter (none _ first.le)
  | skipped none =>
    cases h' with
    | frame first' => exact absurd first'.delimiter (none _ first'.le)
    | incomplete first' => exact absurd first'.delimiter (none _ first'.le)
    | skipped => exact ⟨rfl, rfl⟩

theorem FirstAt.skip {start i : ℕ} (hno : ¬ f.DelimiterAt x start) (h : f.FirstAt x (start + 1) i) :
    f.FirstAt x start i := by
  refine ⟨by have := h.le; omega, h.delimiter, ?_⟩
  intro j hj hji
  by_cases heq : j = start
  · rwa [heq]
  · exact h.first j (by omega) hji

theorem Framing.skip {start : ℕ} {frames : List Buffer} {tail : Buffer} (hno : ¬ f.DelimiterAt x start)
    (hlen : start + f.delimiterBytes ≤ x.length) (h : f.Framing x (start + 1) frames tail) :
    f.Framing x start frames tail := by
  cases h with
  | frame first arrived later => exact .frame (first.skip hno) arrived later
  | incomplete first missing => exact .incomplete (first.skip hno) missing
  | skipped none =>
    have hmax : max (start + 1) (x.length + 1 - f.delimiterBytes) = max start (x.length + 1 - f.delimiterBytes) := by
      omega
    rw [hmax]
    refine .skipped fun i hi => ?_
    by_cases heq : i = start
    · rwa [heq]
    · exact none i (by omega)

/-! ### The decisions of the parser -/

theorem readUIntBE_drop (x : Buffer) (i n : ℕ) : Buffer.readUIntBE (x.drop i) 0 n = Buffer.readUIntBE x i n := by
  simp [Buffer.readUIntBE, Buffer.subarray]

theorem readUIntLE_drop (x : Buffer) (i offset n : ℕ) :
    Buffer.readUIntLE (x.drop i) offset n = Buffer.readUIntLE x (i + offset) n := by
  simp [Buffer.readUIntLE, Buffer.subarray, List.drop_drop]

theorem has_drop_iff (i : ℕ) : f.has (x.drop i) = true ↔ (Buffer.readUIntBE x i f.delimiterBytes : ℤ) ∈ f.delimiters := by
  rw [has, readUIntBE_drop, List.contains_iff_mem]

theorem packetLength_drop (i : ℕ) : f.packetLength (x.drop i) = f.frameLength x i := by
  rw [packetLength, readUIntLE_drop, frameLength]

theorem headerLength_le_frameLength (i : ℕ) : f.headerLength ≤ f.frameLength x i := by
  rw [← packetLength_drop]
  exact f.headerLength_le _

/-- **The parser's decisions find the frames of an input**, from any offset on. -/
theorem framing_cut (start : ℕ) (hstart : start ≤ x.length) :
    f.Framing x start (f.cutter.cut (x.drop start)).1 (f.cutter.cut (x.drop start)).2 := by
  induction hn : x.length - start using Nat.strong_induction_on generalizing start with
  | _ n ih =>
    have hlen : (x.drop start).length = x.length - start := List.length_drop
    have hheader := f.headerLength_pos
    by_cases hd : start + f.delimiterBytes ≤ x.length
    · by_cases hhas : f.has (x.drop start) = true
      · have hfirst : f.FirstAt x start start :=
          ⟨le_rfl, ⟨hd, (has_drop_iff start).1 hhas⟩, fun j hj hji => by omega⟩
        have hle := f.headerLength_le_frameLength (x := x) start
        by_cases harrived : start + f.frameLength x start ≤ x.length
        · -- a whole frame
          have hnext : f.cutter.next (x.drop start) = _ :=
            next_packet hhas (by rw [packetLength_drop, hlen]; omega)
          have hrec := ih (x.length - (start + f.frameLength x start)) (by omega) (start + f.frameLength x start)
            harrived rfl
          rw [Cutter.cut_of_some hnext, packetLength_drop, List.drop_drop]
          have hframe : (x.drop start).take (f.frameLength x start) =
              x.subarray start (start + f.frameLength x start) := by
            rw [Buffer.subarray, Nat.add_sub_cancel_left]
          rw [hframe]
          exact .frame hfirst harrived hrec
        · -- the rest of the frame is missing
          have hnext : f.cutter.next (x.drop start) = none := by
            change f.next (x.drop start) = none
            rw [next, if_neg (by omega), if_pos hhas, if_pos]
            rw [packetLength_drop]
            omega
          rw [Cutter.cut_of_none hnext]
          exact .incomplete hfirst (by omega)
      · -- no delimiter: one byte is skipped
        have hno : ¬ f.DelimiterAt x start := fun h => hhas ((has_drop_iff start).2 h.2)
        have hnext : f.cutter.next (x.drop start) = _ := next_discard (by omega) (by simpa using hhas)
        have hpos := f.delimiterBytes_pos
        rw [Cutter.cut_of_some hnext, List.drop_drop]
        exact (ih (x.length - (start + 1)) (by omega) (start + 1) (by omega) rfl).skip hno hd
    · have hnext : f.cutter.next (x.drop start) = none := by
        change f.next (x.drop start) = none
        rw [next, if_pos (by omega)]
      have hmax : max start (x.length + 1 - f.delimiterBytes) = start := by omega
      rw [Cutter.cut_of_none hnext]
      have hskipped : f.Framing x start [] (x.drop (max start (x.length + 1 - f.delimiterBytes))) :=
        .skipped fun i hi h => by have := h.1; omega
      rwa [hmax] at hskipped

end PacketFormat

namespace PacketLengthParser

theorem runEnd_spec (format : PacketFormat) (chunks : List Buffer) :
    (stream.runEnd (new format) chunks).error = none ∧
      (stream.runEnd (new format) chunks).pushed =
        (format.cutter.cut chunks.flatten).1 ++ [(format.cutter.cut chunks.flatten).2] := by
  obtain ⟨hok, hholds, hcut⟩ := run_spec format chunks
  have hflush : stream.flush (stream.run (new format) chunks).state =
      ⟨{ (stream.run (new format) chunks).state with bytes := {} },
        [(stream.run (new format) chunks).state.bytes.bytes], none⟩ := by
    change flush _ = _
    simp only [flush, ByteQueue.take_all hholds.bytes_wf]
  rw [Transform.runEnd_of_ok hok, hflush, hcut]
  exact ⟨rfl, rfl⟩

theorem create_eq_new {options : PacketLengthOptions} {p : PacketLengthParser} (hp : create options = .ok p) :
    p = new p.format := by
  cases hf : PacketFormat.create options with
  | error message =>
    rw [create, hf] at hp
    cases hp
  | ok format =>
    rw [create, hf] at hp
    obtain rfl := Except.ok.inj hp
    rfl

/-- **Resynchronisation.**  For every configuration that the constructor accepts, every input and every way of cutting
it into chunks, no error is raised, and the buffers pushed, flush included, are the frames of the input and what is left
behind them; they depend on the concatenated bytes only. -/
theorem packet_length_resync (options : PacketLengthOptions) (p : PacketLengthParser) (hp : create options = .ok p)
    (chunks : List Buffer) :
    (stream.runEnd p chunks).error = none ∧
      (∃ frames tail, p.format.Framing chunks.flatten 0 frames tail ∧
        (stream.runEnd p chunks).pushed = frames ++ [tail]) ∧
      ∀ chunks' : List Buffer, chunks'.flatten = chunks.flatten →
        (stream.runEnd p chunks').pushed = (stream.runEnd p chunks).pushed := by
  rw [create_eq_new hp]
  obtain ⟨hok, hpushed⟩ := runEnd_spec p.format chunks
  refine ⟨hok, ⟨_, _, PacketFormat.framing_cut (f := p.format) (x := chunks.flatten) 0 (Nat.zero_le _), hpushed⟩, ?_⟩
  intro chunks' hflatten
  rw [(runEnd_spec p.format chunks').2, hflatten, ← hpushed]

/-- Garbage, a length over the limit that is cut in two, and a frame that is truncated. -/
theorem packet_length_resync_garbage : ∃ p, create { maxLen := 4 } = .ok p ∧
    (stream.runEnd p [[1, 0xaa], [9, 0xaa, 1, 7], [0xaa, 3, 8]]).pushed = [[0xaa, 9], [0xaa, 1, 7], [0xaa, 3, 8]] := by
  refine ⟨_, rfl, ?_⟩
  obtain ⟨-, ⟨frames, tail, hframing, hpushed⟩, -⟩ := packet_length_resync { maxLen := 4 } _ rfl
    [[1, 0xaa], [9, 0xaa, 1, 7], [0xaa, 3, 8]]
  have hexpected : PacketFormat.Framing ⟨[0xaa], 1, 1, 1, 2, 4, Nat.one_pos⟩ [1, 0xaa, 9, 0xaa, 1, 7, 0xaa, 3, 8] 0
      [[0xaa, 9], [0xaa, 1, 7]] [0xaa, 3, 8] := by
    refine .frame (i := 1) ⟨by decide, by decide, ?_⟩ (by decide) ?_
    · intro j hj hji
      obtain rfl : j = 0 := by omega
      decide
    refine .frame (i := 3) ⟨by decide, by decide, ?_⟩ (by decide) ?_
    · intro j (hj : 3 ≤ j) hji
      omega
    refine .incomplete (i := 6) ⟨by decide, by decide, ?_⟩ (by decide)
    intro j (hj : 6 ≤ j) hji
    omega
  obtain ⟨rfl, rfl⟩ := hframing.unique hexpected
  exact hpushed

end PacketLengthParser

end NodeSerialport.Parsers
