import NodeSerialport.Parsers.SpacePacket

/-!
# `SpacePacketParser`: the end of the input

The parser consumes a header as soon as it has arrived, and flushes what is still in the queue.  So the header of a
packet that is cut off in its data is lost.

* `packets x` — the raw packets of an input, and the bytes after the last complete one;
* `cut_eq_packets`: the parser's decisions cut an input into these;
* `flush_spec`: what flush pushes;
* `space_trailing_iff`: it pushes all trailing bytes exactly where they hold no whole header.
-/

namespace NodeSerialport.Parsers

open NodeSerialport.Lib

namespace SpacePacketParser

/-- The raw packets of an input, and the bytes after the last complete one. -/
def packets (x : Buffer) : List Buffer × Buffer :=
  let length := 6 + (readHeader x).dataLength
  if x.length < length then ([], x)
  else
    let later := packets (x.drop length)
    (x.take length :: later.1, later.2)
termination_by x.length
decreasing_by
  rw [List.length_drop]
  omega

theorem packets_of_lt {x : Buffer} (h : x.length < 6 + (readHeader x).dataLength) : packets x = ([], x) := by
  rw [packets]
  simp only [h, if_true]

theorem packets_of_le {x : Buffer} (h : 6 + (readHeader x).dataLength ≤ x.length) :
    packets x = (x.take (6 + (readHeader x).dataLength) :: (packets (x.drop (6 + (readHeader x).dataLength))).1,
      (packets (x.drop (6 + (readHeader x).dataLength))).2) := by
  rw [packets]
  simp only [Nat.not_lt.2 h, if_false]

theorem packets_flatten (x : Buffer) : (packets x).1.flatten ++ (packets x).2 = x := by
  induction hn : x.length using Nat.strong_induction_on generalizing x with
  | _ n ih =>
    by_cases h : x.length < 6 + (readHeader x).dataLength
    · rw [packets_of_lt h]
      rfl
    · rw [packets_of_le (by omega), List.flatten_cons, List.append_assoc, ih _ (by rw [List.length_drop]; omega) _ rfl,
        List.take_append_drop]

section

variable (text : Buffer → String)

/-- The object for a raw packet. -/
def decode (options : SpacePacketOptions) (raw : Buffer) : SpacePacketOutput :=
  .packet (packet text options.timeCodeFieldLength.toNat options.ancillaryDataFieldLength.toNat (readHeader raw)
    (raw.drop 6))

/-- **The parser's decisions find the packets of an input.** -/
theorem cut_eq_packets (t a : ℕ) (x : Buffer) : (cutter text t a).cut x =
    ((packets x).1.map fun raw => packet text t a (readHeader raw) (raw.drop 6), (packets x).2) := by
  induction hn : x.length using Nat.strong_induction_on generalizing x with
  | _ n ih =>
    by_cases h : x.length < 6 + (readHeader x).dataLength
    · have hnext : (cutter text t a).next x = none := by
        change next text t a x = none
        simp only [next]
        rw [if_pos (Or.inr h)]
      rw [Cutter.cut_of_none hnext, packets_of_lt h]
      rfl
    · have hle : 6 + (readHeader x).dataLength ≤ x.length := by omega
      have hnext : (cutter text t a).next x = _ := next_of_le text hle
      have hheader : readHeader (x.take (6 + (readHeader x).dataLength)) = readHeader x := by
        rw [← readHeader_take (x.take _), List.take_take, min_eq_left (by omega), readHeader_take]
      have hdata : x.subarray 6 (6 + (readHeader x).dataLength) = (x.take (6 + (readHeader x).dataLength)).drop 6 := by
        rw [Buffer.subarray, List.drop_take]
      rw [Cutter.cut_of_some hnext, packets_of_le hle, ih _ (by rw [List.length_drop]; omega) _ rfl, List.map_cons,
        hheader, hdata]
      rfl

/-- What flush pushes: the header is lost where it has arrived. -/
theorem flush_spec {t a : ℕ} {p : SpacePacketParser} {y : Buffer} (h : Settled t a p y) :
    (flush p).error = none ∧ (flush p).pushed = [.trailing (if y.length < 6 then y else y.drop 6)] := by
  have hflush : flush p = ⟨{ p with bytes := {}, header := none }, [.trailing p.bytes.bytes], none⟩ := by
    simp only [flush, ByteQueue.take_all h.bytes_wf]
  rw [hflush]
  refine ⟨rfl, ?_⟩
  cases hh : p.header with
  | none => rw [if_pos (h.missing hh), h.waiting hh]
  | some header =>
    obtain ⟨hlen, hbytes, -⟩ := h.consumed header hh
    rw [if_neg (by omega), hbytes]

theorem stream_spec {options : SpacePacketOptions} {p : SpacePacketParser} (hp : create options = .ok p)
    (chunks : List Buffer) :
    let trailing := (packets chunks.flatten).2
    ((stream text).run p chunks).error = none ∧
      ((stream text).run p chunks).pushed = (packets chunks.flatten).1.map (decode text options) ∧
      ((stream text).flush ((stream text).run p chunks).state).error = none ∧
      ((stream text).flush ((stream text).run p chunks).state).pushed =
        [.trailing (if trailing.length < 6 then trailing else trailing.drop 6)] := by
  obtain ⟨hok, hsettled, hpushed⟩ := run_spec text (create_holds hp) chunks
  rw [cut_eq_packets] at hsettled hpushed
  obtain ⟨herror, hflush⟩ := flush_spec hsettled
  refine ⟨hok, ?_, herror, hflush⟩
  rw [hpushed, List.map_map]
  rfl

/-- **The trailing bytes.**  For every pair of field lengths that the constructor accepts, every input and every way of
cutting it into chunks, the objects pushed are those of the packets of the input; the array that flush pushes holds the
bytes after the last of them, so that nothing of the input is lost, exactly where these are fewer than a header. -/
theorem space_trailing_iff (options : SpacePacketOptions) (p : SpacePacketParser) (hp : create options = .ok p)
    (chunks : List Buffer) :
    let raws := (packets chunks.flatten).1
    let trailing := (packets chunks.flatten).2
    let flushed := (stream text).flush ((stream text).run p chunks).state
    ((stream text).run p chunks).pushed = raws.map (decode text options) ∧
      ((∃ bytes, flushed.pushed = [.trailing bytes] ∧ bytes = trailing ∧ raws.flatten ++ bytes = chunks.flatten) ↔
        trailing.length < 6) := by
  intro raws trailing flushed
  obtain ⟨-, hpushed, -, hflush⟩ := stream_spec text hp chunks
  refine ⟨hpushed, ?_⟩
  constructor
  · rintro ⟨bytes, hbytes, heq, -⟩
    by_contra hlen
    have hdrop : trailing.drop 6 = trailing := by
      rw [hflush, heq, if_neg hlen] at hbytes
      simpa using hbytes
    have := congrArg List.length hdrop
    rw [List.length_drop] at this
    omega
  · intro hlen
    refine ⟨trailing, ?_, rfl, packets_flatten _⟩
    rw [hflush]
    simp [trailing, hlen]

/-- One packet, cut in its header, then four bytes: all four are flushed. -/
theorem space_trailing_iff_short : ∃ p, create {} = .ok p ∧
    ((stream toStringUtf8).flush ((stream toStringUtf8).run p [[0x09, 0x23, 0xc0], [7, 0, 0, 0x54, 1, 2, 3, 4]]).state).pushed =
      [.trailing [1, 2, 3, 4]] := by
  have hpackets : packets ([[0x09, 0x23, 0xc0], [7, 0, 0, 0x54, 1, 2, 3, 4]] : List Buffer).flatten =
      ([[0x09, 0x23, 0xc0, 7, 0, 0, 0x54]], [1, 2, 3, 4]) := by
    rw [packets_of_le (by decide), packets_of_lt (by decide)]
    rfl
  refine ⟨_, rfl, ?_⟩
  obtain ⟨-, hiff⟩ := space_trailing_iff toStringUtf8 {} _ rfl [[0x09, 0x23, 0xc0], [7, 0, 0, 0x54, 1, 2, 3, 4]]
  rw [hpackets] at hiff
  obtain ⟨bytes, hbytes, rfl, -⟩ := hiff.2 (by decide)
  exact hbytes

/-- **A packet that is cut off in its data**: no packet is complete, and of the seven bytes flush pushes the last, as
the header is lost. -/
theorem space_header_lost : ∃ p, create {} = .ok p ∧
    let input : Buffer := [0x09, 0x23, 0xc0, 7, 0, 4, 0x54]
    let run := (stream toStringUtf8).run p [input]
    packets input = ([], input) ∧ run.pushed = [] ∧
      ((stream toStringUtf8).flush run.state).pushed = [.trailing [0x54]] ∧
      ((stream toStringUtf8).flush run.state).pushed ≠ [.trailing input] := by
  have hpackets : packets [0x09, 0x23, 0xc0, 7, 0, 4, 0x54] = ([], [0x09, 0x23, 0xc0, 7, 0, 4, 0x54]) :=
    packets_of_lt (by decide)
  refine ⟨_, rfl, hpackets, ?_⟩
  obtain ⟨-, hpushed, -, hflush⟩ := stream_spec toStringUtf8 (rfl : create {} = .ok _) [[0x09, 0x23, 0xc0, 7, 0, 4, 0x54]]
  have hflatten : ([[0x09, 0x23, 0xc0, 7, 0, 4, 0x54]] : List Buffer).flatten = [0x09, 0x23, 0xc0, 7, 0, 4, 0x54] := rfl
  rw [hflatten, hpackets] at hpushed hflush
  refine ⟨hpushed, hflush, ?_⟩
  rw [hflush]
  decide

end

end SpacePacketParser

end NodeSerialport.Parsers
