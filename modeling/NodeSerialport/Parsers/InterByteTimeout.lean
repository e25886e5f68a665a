import NodeSerialport.Lib.Machine
import NodeSerialport.Parsers.ByteQueue
import Mathlib.Algebra.Order.Ring.Rat

/-!
# `InterByteTimeoutParser`

Bytes are collected until none arrives for a while, or until `maxBufferSize` of them are there.  The parser is a machine:
a chunk, the expiry of its timer, a call of `emitPacket` and the end of the input may come in any order.

* `InterByteTimeoutParser.step` — one event;
* `Holds p input packets` — the bytes are conserved, packets are bounded, and the timer is armed for what is left;
* `transformLoop_spec`: every turn of the loop over a chunk consumes bytes of it;
* `inter_byte_timeout_conserves`: the invariant over every run, and no event fails.
-/

namespace NodeSerialport.Parsers

open NodeSerialport.Lib

structure InterByteTimeoutParser where
  bytes : ByteQueue := {}
  /-- Whether `#timer` is armed. -/
  timer : Bool := false
  interval : ℚ
  maxBufferSize : ℕ

/-- What happens to a parser. -/
inductive TimeoutEvent where
  | chunk (chunk : Buffer)
  /-- The timer expires. -/
  | expire
  /-- `emitPacket` is called from outside. -/
  | emitPacket
  /-- `_flush`. -/
  | flush

namespace InterByteTimeoutParser

/-- The constructor; `none` stands for an interval that is no finite number. -/
def create (interval : Option ℚ) (maxBufferSize : ℤ := 65536) : Except String InterByteTimeoutParser :=
  match interval with
  | none => .error "Invalid interval"
  | some interval =>
    if interval < 1 then .error "Invalid interval"
    else do
      let maxBufferSize ← integer maxBufferSize "maxBufferSize" 1 maxSafeInteger
      return { interval, maxBufferSize := maxBufferSize.toNat }

/-- `emitPacket`; `none` where it throws. -/
def emitPacket (p : InterByteTimeoutParser) : Option (InterByteTimeoutParser × List Buffer) :=
  if p.bytes.length = 0 then some ({ p with timer := false }, [])
  else
    match p.bytes.take p.bytes.length with
    | .error _ => none
    | .ok (packet, bytes) => some ({ p with bytes, timer := false }, [packet])

/-- One turn of the loop of `_transform`: how many bytes of the chunk it consumes, and what it pushes. -/
def turn (p : InterByteTimeoutParser) (chunk : Buffer) : Option (ℕ × InterByteTimeoutParser × List Buffer) :=
  let count := min (p.maxBufferSize - p.bytes.length) chunk.length
  let p := { p with bytes := p.bytes.append (chunk.take count) }
  if p.bytes.length = p.maxBufferSize then p.emitPacket.map (count, ·) else some (count, p, [])

/-- The loop of `_transform` over the rest of a chunk; `none` where it throws, or is not over after `turns` turns. -/
def transformLoop : ℕ → InterByteTimeoutParser → Buffer → Option (InterByteTimeoutParser × List Buffer)
  | _, p, [] => some (p, [])
  | 0, _, _ :: _ => none
  | turns + 1, p, chunk@(_ :: _) =>
    match p.turn chunk with
    | none => none
    | some (count, p, packets) =>
      (transformLoop turns p (chunk.drop count)).map fun (p, rest) => (p, packets ++ rest)

/-- The end of `_transform`: start the timer, or refresh it. -/
def arm (p : InterByteTimeoutParser) : InterByteTimeoutParser :=
  if p.bytes.length ≠ 0 then { p with timer := true } else p

/-- `_transform`, within a turn for each byte of the chunk. -/
def transform (p : InterByteTimeoutParser) (chunk : Buffer) : Option (InterByteTimeoutParser × List Buffer) :=
  (transformLoop chunk.length p chunk).map fun (p, packets) => (p.arm, packets)

def step (p : InterByteTimeoutParser) : TimeoutEvent → Option (InterByteTimeoutParser × List Buffer)
  | .chunk chunk => p.transform chunk
  | .expire => if p.timer then p.emitPacket else none
  | .emitPacket | .flush => p.emitPacket

/-- The parser, until it is destroyed. -/
def machine : Machine InterByteTimeoutParser TimeoutEvent Buffer := ⟨step⟩

/-- The bytes an event brings. -/
def received : TimeoutEvent → Buffer
  | .chunk chunk => chunk
  | _ => []

/-! ### Packets -/

/-- A packet is not empty, and no longer than the buffer. -/
def Bounded (maxBufferSize : ℕ) (packets : List Buffer) : Prop :=
  ∀ packet ∈ packets, packet ≠ [] ∧ packet.length ≤ maxBufferSize

theorem Bounded.append {m : ℕ} {a b : List Buffer} (ha : Bounded m a) (hb : Bounded m b) : Bounded m (a ++ b) := by
  intro packet hmem
  rcases List.mem_append.1 hmem with hmem | hmem
  · exact ha packet hmem
  · exact hb packet hmem

/-- The parser has room, and a timer only for bytes it holds. -/
structure Sound (p : InterByteTimeoutParser) : Prop where
  wf : p.bytes.WF
  room : p.bytes.length < p.maxBufferSize
  timer : p.timer = true → p.bytes.bytes ≠ []

/-- What a call leaves, and what it pushed, of the bytes that were there or came in. -/
structure Pushes (p p' : InterByteTimeoutParser) (input : Buffer) (packets : List Buffer) : Prop where
  sound : p'.Sound
  maxBufferSize : p'.maxBufferSize = p.maxBufferSize
  conserved : packets.flatten ++ p'.bytes.bytes = p.bytes.bytes ++ input
  bounded : Bounded p.maxBufferSize packets

/-- **`emitPacket`** pushes what is there, and leaves nothing. -/
theorem emitPacket_spec {p : InterByteTimeoutParser} (hwf : p.bytes.WF) (hpos : 0 < p.maxBufferSize)
    (hle : p.bytes.length ≤ p.maxBufferSize) :
    ∃ p' packets, p.emitPacket = some (p', packets) ∧ p.Pushes p' [] packets ∧ p'.bytes.bytes = [] ∧ p'.timer = false := by
  have hlength := hwf.length_eq
  by_cases hzero : p.bytes.length = 0
  · have hnil : p.bytes.bytes = [] := List.length_eq_zero_iff.1 (by omega)
    refine ⟨{ p with timer := false }, [], if_pos hzero, ⟨⟨hwf, by simpa [hzero] using hpos, nofun⟩, rfl, ?_, ?_⟩, hnil, rfl⟩
    · simp
    · intro packet hmem
      cases hmem
  · refine ⟨{ p with bytes := {}, timer := false }, [p.bytes.bytes], ?_,
      ⟨⟨ByteQueue.wf_empty, hpos, nofun⟩, rfl, by simp, ?_⟩, rfl, rfl⟩
    · unfold emitPacket
      rw [if_neg hzero, ByteQueue.take_all hwf]
    · intro packet hmem
      obtain rfl := List.mem_singleton.1 hmem
      exact ⟨fun hnil => hzero (by rw [hlength, hnil]; rfl), by omega⟩

/-! ### The loop over a chunk -/

/-- **A turn makes progress.** -/
theorem turn_spec {p : InterByteTimeoutParser} (h : p.Sound) {chunk : Buffer} (hne : chunk ≠ []) :
    ∃ count p' packets, p.turn chunk = some (count, p', packets) ∧ 0 < count ∧ count ≤ chunk.length ∧
      p.Pushes p' (chunk.take count) packets := by
  have hlen : 0 < chunk.length := List.length_pos_iff.2 hne
  have hroom := h.room
  obtain ⟨count, hcount⟩ : ∃ count, count = min (p.maxBufferSize - p.bytes.length) chunk.length := ⟨_, rfl⟩
  have htake : (chunk.take count).length = count := by
    rw [List.length_take]
    omega
  obtain ⟨hwf, hbytes⟩ := ByteQueue.append_spec h.wf (chunk.take count)
  have hlength : (p.bytes.append (chunk.take count)).length = p.bytes.length + count := by
    rw [hwf.length_eq, hbytes, List.length_append, ← h.wf.length_eq, htake]
  unfold turn
  rw [← hcount]
  dsimp only
  split
  · rename_i hfull
    have hpos : 0 < p.maxBufferSize := by omega
    obtain ⟨p', packets, hemit, hpushes, -, -⟩ :=
      emitPacket_spec (p := { p with bytes := p.bytes.append (chunk.take count) }) hwf hpos (le_of_eq hfull)
    refine ⟨count, p', packets, by rw [hemit]; rfl, by omega, by omega, hpushes.sound, hpushes.maxBufferSize, ?_,
      hpushes.bounded⟩
    have hconserved := hpushes.conserved
    rw [List.append_nil] at hconserved
    exact hconserved.trans hbytes
  · rename_i hmore
    refine ⟨count, _, [], rfl, by omega, by omega, ⟨hwf, ?_, fun _ hnil => ?_⟩, rfl, hbytes, nofun⟩
    · show (p.bytes.append (chunk.take count)).length < p.maxBufferSize
      rw [hlength] at hmore ⊢
      omega
    · -- bytes were added
      have hnil' : (p.bytes.append (chunk.take count)).bytes = [] := hnil
      have := hwf.length_eq
      rw [hnil', List.length_nil, hlength] at this
      omega

/-- **The loop is over** within a turn for each byte. -/
theorem transformLoop_spec {p : InterByteTimeoutParser} (h : p.Sound) {turns : ℕ} {chunk : Buffer}
    (hturns : chunk.length ≤ turns) :
    ∃ p' packets, transformLoop turns p chunk = some (p', packets) ∧ p.Pushes p' chunk packets := by
  induction turns generalizing p chunk with
  | zero =>
    obtain rfl : chunk = [] := List.length_eq_zero_iff.1 (by omega)
    exact ⟨p, [], rfl, h, rfl, by simp, nofun⟩
  | succ turns ih =>
    cases chunk with
    | nil => exact ⟨p, [], rfl, h, rfl, by simp, nofun⟩
    | cons byte rest =>
      obtain ⟨count, p₁, packets, hturn, hpos, hle, hpushes⟩ := turn_spec h (List.cons_ne_nil byte rest)
      have hrest : ((byte :: rest).drop count).length ≤ turns := by
        rw [List.length_drop]
        omega
      obtain ⟨p₂, packets', hloop, hpushes'⟩ := ih hpushes.sound hrest
      refine ⟨p₂, packets ++ packets', ?_, hpushes'.sound, hpushes'.maxBufferSize.trans hpushes.maxBufferSize, ?_, ?_⟩
      · simp only [transformLoop, hturn, hloop, Option.map_some]
      · rw [List.flatten_append, List.append_assoc, hpushes'.conserved, ← List.append_assoc, hpushes.conserved,
          List.append_assoc, List.take_append_drop]
      · exact hpushes.bounded.append (hpushes.maxBufferSize ▸ hpushes'.bounded)

/-! ### Events -/

/-- **What holds between two events**, of the input so far and the packets emitted. -/
structure Holds (maxBufferSize : ℕ) (p : InterByteTimeoutParser) (input : Buffer) (packets : List Buffer) : Prop where
  size : p.maxBufferSize = maxBufferSize
  wf : p.bytes.WF
  conserved : packets.flatten ++ p.bytes.bytes = input
  bounded : Bounded maxBufferSize packets
  room : p.bytes.length < maxBufferSize
  armed : p.timer = true ↔ p.bytes.bytes ≠ []

variable {maxBufferSize : ℕ} {p p' : InterByteTimeoutParser} {input input' : Buffer} {packets packets' : List Buffer}

theorem Holds.sound (h : Holds maxBufferSize p input packets) : p.Sound := ⟨h.wf, h.size ▸ h.room, h.armed.1⟩

theorem Holds.pushes (h : Holds maxBufferSize p input packets) (hpushes : p.Pushes p' input' packets')
    (harmed : p'.bytes.bytes ≠ [] → p'.timer = true) : Holds maxBufferSize p' (input ++ input') (packets ++ packets') := by
  have hsize : p'.maxBufferSize = maxBufferSize := hpushes.maxBufferSize.trans h.size
  refine ⟨hsize, hpushes.sound.wf, ?_, ?_, hsize ▸ hpushes.sound.room, hpushes.sound.timer, harmed⟩
  · rw [List.flatten_append, List.append_assoc, hpushes.conserved, ← List.append_assoc, h.conserved]
  · exact h.bounded.append (h.size ▸ hpushes.bounded)

theorem Pushes.arm (h : p.Pushes p' input packets) :
    p.Pushes p'.arm input packets ∧ (p'.arm.bytes.bytes ≠ [] → p'.arm.timer = true) := by
  have hlength := h.sound.wf.length_eq
  unfold InterByteTimeoutParser.arm
  split
  · rename_i hne
    refine ⟨⟨⟨h.sound.wf, h.sound.room, fun _ hnil => hne ?_⟩, h.maxBufferSize, h.conserved, h.bounded⟩, fun _ => rfl⟩
    rw [hlength, hnil]
    rfl
  · rename_i hzero
    exact ⟨h, fun hne => absurd (List.length_pos_iff.2 hne) (by omega)⟩

theorem Holds.transform (h : Holds maxBufferSize p input packets) (chunk : Buffer) :
    ∃ p' out, p.transform chunk = some (p', out) ∧ Holds maxBufferSize p' (input ++ chunk) (packets ++ out) := by
  obtain ⟨p', out, hloop, hpushes⟩ := transformLoop_spec h.sound (le_refl chunk.length)
  obtain ⟨hpushes', harmed⟩ := hpushes.arm
  refine ⟨p'.arm, out, ?_, h.pushes hpushes' harmed⟩
  unfold InterByteTimeoutParser.transform
  rw [hloop]
  rfl

/-- `emitPacket` succeeds, and leaves nothing. -/
theorem Holds.emitPacket (h : Holds maxBufferSize p input packets) :
    ∃ p' out, p.emitPacket = some (p', out) ∧ Holds maxBufferSize p' input (packets ++ out) ∧ p'.bytes.bytes = [] ∧
      p'.timer = false := by
  have hroom := h.sound.room
  obtain ⟨p', out, hemit, hpushes, hnil, htimer⟩ := emitPacket_spec h.wf (by omega) hroom.le
  have hholds := h.pushes hpushes fun hne => absurd hnil hne
  rw [List.append_nil] at hholds
  exact ⟨p', out, hemit, hholds, hnil, htimer⟩

/-- **Every event that can happen succeeds**, and keeps the invariant. -/
theorem Holds.step (h : Holds maxBufferSize p input packets) (event : TimeoutEvent)
    (hcan : event = .expire → p.timer = true) :
    ∃ p' out, p.step event = some (p', out) ∧ Holds maxBufferSize p' (input ++ received event) (packets ++ out) := by
  obtain ⟨p', out, hemit, hholds, -, -⟩ := h.emitPacket
  have hholds' : Holds maxBufferSize p' (input ++ []) (packets ++ out) := by rwa [List.append_nil]
  cases event with
  | chunk chunk => exact h.transform chunk
  | expire =>
    refine ⟨p', out, ?_, hholds'⟩
    rw [InterByteTimeoutParser.step, if_pos (hcan rfl)]
    exact hemit
  | emitPacket => exact ⟨p', out, hemit, hholds'⟩
  | flush => exact ⟨p', out, hemit, hholds'⟩

theorem can_of_step {event : TimeoutEvent} {out : List Buffer} (h : p.step event = some (p', out)) :
    event = .expire → p.timer = true := by
  rintro rfl
  rw [step] at h
  by_contra htimer
  rw [if_neg htimer] at h
  cases h

/-- **Over a run.** -/
theorem Holds.run (h : Holds maxBufferSize p [] []) {events : List TimeoutEvent} {s : InterByteTimeoutParser}
    (hrun : machine.run p events = some (s, packets)) : Holds maxBufferSize s (events.flatMap received) packets := by
  refine Machine.run_rule_all (fun events packets s => Holds maxBufferSize s (events.flatMap received) packets) h ?_ hrun
  intro events packets s event s' out hs hstep
  obtain ⟨s₁, out₁, hstep', hholds⟩ := hs.step event (can_of_step hstep)
  cases hstep'.symm.trans hstep
  rw [List.flatMap_append, List.flatMap_singleton]
  exact hholds

theorem create_holds {interval : Option ℚ} {maxBufferSize : ℤ} {p : InterByteTimeoutParser}
    (h : create interval maxBufferSize = .ok p) :
    Holds p.maxBufferSize p [] [] ∧ (p.maxBufferSize : ℤ) = maxBufferSize := by
  unfold create at h
  split at h
  · cases h
  · split at h
    · cases h
    · obtain ⟨value, hvalue, h⟩ := bind_eq_ok h
      obtain rfl := Except.ok.inj h
      obtain ⟨rfl, hmin, -⟩ := integer_eq_ok hvalue
      have hcast : ((value.toNat : ℕ) : ℤ) = value := Int.toNat_of_nonneg (by omega)
      refine ⟨⟨rfl, ByteQueue.wf_empty, rfl, nofun, ?_, ?_⟩, hcast⟩
      · show 0 < value.toNat
        omega
      · simp

/-- **Bytes are conserved, and none is stranded.**  After every sequence of chunks, expiries, calls and flushes: the packets
and the bytes in the buffer are the input, packets are bounded and not empty, the buffer has room, and the timer is armed
exactly for a buffer that is not empty.  Every event that can happen succeeds, and a flush leaves nothing. -/
theorem inter_byte_timeout_conserves (interval : Option ℚ) (maxBufferSize : ℤ) (p : InterByteTimeoutParser)
    (hcreate : create interval maxBufferSize = .ok p) (events : List TimeoutEvent) (s : InterByteTimeoutParser)
    (packets : List Buffer) (hrun : machine.run p events = some (s, packets)) :
    packets.flatten ++ s.bytes.bytes = events.flatMap received ∧
      (∀ packet ∈ packets, packet ≠ [] ∧ (packet.length : ℤ) ≤ maxBufferSize) ∧
      s.bytes.length = s.bytes.bytes.length ∧ (s.bytes.length : ℤ) < maxBufferSize ∧
      (s.timer = true ↔ s.bytes.bytes ≠ []) ∧
      (∀ event, (event = .expire → s.timer = true) → ∃ s' out, s.step event = some (s', out)) ∧
      ∀ s' out, s.step .flush = some (s', out) → s'.bytes.bytes = [] ∧ s'.timer = false := by
  obtain ⟨hstart, hmax⟩ := create_holds hcreate
  have h := hstart.run hrun
  refine ⟨h.conserved, ?_, h.wf.length_eq, ?_, h.armed, fun event hcan => ?_, fun s' out hflush => ?_⟩
  · intro packet hmem
    obtain ⟨hne, hle⟩ := h.bounded packet hmem
    exact ⟨hne, by omega⟩
  · have := h.room
    omega
  · obtain ⟨s', out, hstep, -⟩ := h.step event hcan
    exact ⟨s', out, hstep⟩
  · obtain ⟨s₁, out₁, hemit, -, hnil, htimer⟩ := h.emitPacket
    cases hemit.symm.trans hflush
    exact ⟨hnil, htimer⟩

/-- Three bytes for a buffer of two: a full packet, and the rest once the timer expires. -/
theorem inter_byte_timeout_conserves_expired : ∃ p s packets, create (some 10) 2 = .ok p ∧
    machine.run p [.chunk [1, 2, 3], .expire] = some (s, packets) ∧ packets = [[1, 2], [3]] ∧
    packets.flatten ++ s.bytes.bytes = [1, 2, 3] := by
  refine ⟨{ interval := 10, maxBufferSize := 2 }, _, _, rfl, rfl, rfl, ?_⟩
  exact (inter_byte_timeout_conserves (some 10) 2 _ rfl [.chunk [1, 2, 3], .expire] _ _ rfl).1

end InterByteTimeoutParser

end NodeSerialport.Parsers
