import NodeSerialport.Lib.Cutter
import NodeSerialport.Lib.Transform
import NodeSerialport.Parsers.ByteQueue
import Mathlib.Data.List.GetD
import Mathlib.Data.List.SplitBy

/-!
# `CCTalkParser`

A frame is two bytes, as many bytes of payload as the second of them says, and three more.  Bytes that are left when the
next chunk comes too late are dropped before it is looked at.

* `CCTalkParser.transform` — a chunk, with the time it arrives at;
* `frames` — the frames a text starts with, as a `Cutter`;
* `bursts m events` — the maximal runs of chunks with no gap greater than `m`;
* `cctalk_bursts`: what is pushed is, burst by burst, what the bytes of the burst are cut into.

A clock is any type with a subtraction and an order; nothing depends on how it rounds.
-/

namespace NodeSerialport.Parsers

open NodeSerialport.Lib

variable {τ : Type} [Zero τ] [Sub τ] [LT τ] [DecidableLT τ]

structure CCTalkParser (τ : Type) where
  bytes : ByteQueue := {}
  last : τ
  maxDelayBetweenBytesMs : τ

namespace CCTalkParser

def new (maxDelayBetweenBytesMs : τ) : CCTalkParser τ := { last := 0, maxDelayBetweenBytesMs }

/-- The outcome of a call that has pushed `frame` already. -/
def pushed (frame : Buffer) (rest : Outcome ByteQueue Buffer ParserError) : Outcome ByteQueue Buffer ParserError :=
  ⟨rest.state, frame :: rest.pushed, rest.error⟩

/-- The loop of `_transform`. -/
def transformLoop (bytes : ByteQueue) : Outcome ByteQueue Buffer ParserError :=
  if bytes.length ≥ 2 then
    match bytes.peek 2 with
    | .error message => ⟨bytes, [], some (.thrown message)⟩
    | .ok front =>
      let length := (front.getD 1 0).toNat + 5
      if bytes.length < length then ⟨bytes, [], none⟩
      else
        match _h : bytes.take length with
        | .error message => ⟨bytes, [], some (.thrown message)⟩
        | .ok (frame, bytes) => pushed frame (transformLoop bytes)
  else ⟨bytes, [], none⟩
termination_by bytes.length
decreasing_by
  have := ByteQueue.take_length _h
  omega

/-- A chunk that arrives at `now` comes too late for the bytes before it. -/
def late (maxDelayBetweenBytesMs last now : τ) : Bool :=
  decide (0 < maxDelayBetweenBytesMs) && decide (maxDelayBetweenBytesMs < now - last)

/-- `_transform`, at the time `now`. -/
def transform (p : CCTalkParser τ) (now : τ) (chunk : Buffer) : Outcome (CCTalkParser τ) Buffer ParserError :=
  let p :=
    if 0 < p.maxDelayBetweenBytesMs then
      { p with
        bytes := if p.maxDelayBetweenBytesMs < now - p.last then p.bytes.clear else p.bytes
        last := now }
    else p
  let o := transformLoop (p.bytes.append chunk)
  ⟨{ p with bytes := o.state }, o.pushed, o.error⟩

/-- Chunks, each with the time it arrives at, until one of them is answered with an error. -/
def run (p : CCTalkParser τ) : List (τ × Buffer) → Outcome (CCTalkParser τ) Buffer ParserError
  | [] => ⟨p, [], none⟩
  | (now, chunk) :: events =>
    let o := p.transform now chunk
    match o.error with
    | some e => ⟨o.state, o.pushed, some e⟩
    | none =>
      let r := run o.state events
      ⟨r.state, o.pushed ++ r.pushed, r.error⟩

/-! ### Frames and bursts -/

/-- The length of the frame a text starts with. -/
def frameLength (x : Buffer) : ℕ := (x.getD 1 0).toNat + 5

/-- The frame a text starts with, once all of it has arrived. -/
def nextFrame (x : Buffer) : Option (ℕ × Option Buffer) :=
  if 2 ≤ x.length ∧ frameLength x ≤ x.length then some (frameLength x, some (x.take (frameLength x))) else none

/-- The frames a text is cut into, greedily from its start. -/
def frames : Cutter UInt8 Buffer where
  next := nextFrame
  pos h := by
    unfold nextFrame at h
    split at h
    · rename_i hle
      cases h
      exact ⟨Nat.succ_pos _, hle.2⟩
    · cases h
  stable {x r} z h := by
    unfold nextFrame at h ⊢
    split at h
    · rename_i hle
      have hlength : frameLength (x ++ z) = frameLength x := by
        unfold frameLength
        rw [List.getD_append _ _ _ _ (by omega)]
      rw [hlength, if_pos (by rw [List.length_append]; omega), List.take_append_of_le_length hle.2]
      exact h
    · cases h

/-- The maximal runs of chunks with no gap greater than the maximum delay; all are one run where it is not positive. -/
def bursts (maxDelayBetweenBytesMs : τ) (events : List (τ × Buffer)) : List (List (τ × Buffer)) :=
  events.splitBy fun before after => !late maxDelayBetweenBytesMs before.1 after.1

/-- What the bytes of a burst are cut into; the rest is discarded. -/
def burstFrames (burst : List (τ × Buffer)) : List Buffer := (frames.cut (burst.flatMap Prod.snd)).1

/-! ### One chunk -/

/-- The loop pushes what the bytes are cut into, and keeps the rest. -/
theorem transformLoop_spec {bytes : ByteQueue} (h : bytes.WF) :
    (transformLoop bytes).error = none ∧ (transformLoop bytes).pushed = (frames.cut bytes.bytes).1 ∧
      (transformLoop bytes).state.WF ∧ (transformLoop bytes).state.bytes = (frames.cut bytes.bytes).2 := by
  induction hn : bytes.length using Nat.strong_induction_on generalizing bytes with
  | _ n ih =>
    subst hn
    have hlen := h.length_eq
    have hstop : ¬ (2 ≤ bytes.bytes.length ∧ frameLength bytes.bytes ≤ bytes.bytes.length) →
        (frames.cut bytes.bytes) = ([], bytes.bytes) := fun hno => Cutter.cut_of_none (if_neg hno)
    rw [transformLoop]
    split
    · rename_i htwo
      rw [ByteQueue.peek_spec h htwo]
      have hfront : ((bytes.bytes.take 2).getD 1 0).toNat + 5 = frameLength bytes.bytes := by
        unfold frameLength
        rw [List.getD_eq_getElem?_getD, List.getD_eq_getElem?_getD, List.getElem?_take_of_lt (by omega)]
      dsimp only
      rw [hfront]
      split
      · rename_i hshort
        rw [hstop (by omega)]
        exact ⟨rfl, rfl, h, rfl⟩
      · rename_i hlong
        obtain ⟨rest, htake, hwf, hrest⟩ := ByteQueue.take_spec h (Nat.le_of_not_lt hlong)
        have hlt : rest.length < bytes.length := by
          rw [ByteQueue.take_length htake]
          unfold frameLength
          omega
        obtain ⟨hok, hpushed, hwf', hstate⟩ := ih _ hlt hwf rfl
        have hcut : frames.cut bytes.bytes = (bytes.bytes.take (frameLength bytes.bytes) :: (frames.cut rest.bytes).1,
            (frames.cut rest.bytes).2) := by
          have hnext : frames.next bytes.bytes =
              some (frameLength bytes.bytes, some (bytes.bytes.take (frameLength bytes.bytes))) := if_pos (by omega)
          rw [Cutter.cut_of_some hnext, hrest]
          rfl
        split
        · rename_i message hfail
          cases htake.symm.trans hfail
        · rename_i frame bytes' htake'
          cases htake.symm.trans htake'
          rw [hcut]
          exact ⟨hok, congrArg _ hpushed, hwf', hstate⟩
    · rename_i htwo
      rw [hstop (by omega)]
      exact ⟨rfl, rfl, h, rfl⟩

/-- What is left of the bytes before a chunk. -/
def kept (p : CCTalkParser τ) (now : τ) : Buffer :=
  if late p.maxDelayBetweenBytesMs p.last now then [] else p.bytes.bytes

/-- **One chunk.** -/
theorem transform_spec {p : CCTalkParser τ} (h : p.bytes.WF) (now : τ) (chunk : Buffer) :
    (p.transform now chunk).error = none ∧ (p.transform now chunk).pushed = (frames.cut (p.kept now ++ chunk)).1 ∧
      (p.transform now chunk).state.bytes.WF ∧
      (p.transform now chunk).state.bytes.bytes = (frames.cut (p.kept now ++ chunk)).2 ∧
      (p.transform now chunk).state.maxDelayBetweenBytesMs = p.maxDelayBetweenBytesMs ∧
      (0 < p.maxDelayBetweenBytesMs → (p.transform now chunk).state.last = now) := by
  unfold transform
  by_cases hm : 0 < p.maxDelayBetweenBytesMs
  · rw [if_pos hm]
    obtain ⟨hwf, hkept⟩ : (if p.maxDelayBetweenBytesMs < now - p.last then p.bytes.clear else p.bytes).WF ∧
        (if p.maxDelayBetweenBytesMs < now - p.last then p.bytes.clear else p.bytes).bytes = p.kept now := by
      unfold kept late
      split
      · rename_i hlate
        simp [hm, hlate, ByteQueue.wf_empty]
      · rename_i hlate
        simp [hlate, h]
    obtain ⟨hwf', hbytes⟩ := ByteQueue.append_spec hwf chunk
    obtain ⟨hok, hpushed, hstate, hrest⟩ := transformLoop_spec hwf'
    rw [hbytes, hkept] at hpushed hrest
    exact ⟨hok, hpushed, hstate, hrest, rfl, fun _ => rfl⟩
  · rw [if_neg hm]
    have hkept : p.kept now = p.bytes.bytes := by
      unfold kept late
      simp [hm]
    obtain ⟨hwf', hbytes⟩ := ByteQueue.append_spec h chunk
    obtain ⟨hok, hpushed, hstate, hrest⟩ := transformLoop_spec hwf'
    rw [hbytes, ← hkept] at hpushed hrest
    exact ⟨hok, hpushed, hstate, hrest, rfl, fun hm' => absurd hm' hm⟩

/-! ### A burst -/

/-- No gap before a chunk, nor between the chunks from there on. -/
def Gapless (maxDelayBetweenBytesMs : τ) (events : List (τ × Buffer)) : Prop :=
  events.IsChain fun before after => (!late maxDelayBetweenBytesMs before.1 after.1) = true

theorem run_append {p : CCTalkParser τ} {a : List (τ × Buffer)} (h : (p.run a).error = none) (b : List (τ × Buffer)) :
    p.run (a ++ b) =
      ⟨((p.run a).state.run b).state, (p.run a).pushed ++ ((p.run a).state.run b).pushed,
        ((p.run a).state.run b).error⟩ := by
  induction a generalizing p with
  | nil => rfl
  | cons event a ih =>
    obtain ⟨now, chunk⟩ := event
    cases hone : (p.transform now chunk).error with
    | some e =>
      simp only [run, hone] at h
      cases h
    | none =>
      simp only [run, hone] at h
      simp only [List.cons_append, run, hone, ih h, List.append_assoc]

/-- The parser between two chunks, the last of which arrived at `last`; nothing more can be cut from its bytes. -/
structure Between (p : CCTalkParser τ) (maxDelayBetweenBytesMs last : τ) : Prop where
  wf : p.bytes.WF
  rest : frames.next p.bytes.bytes = none
  delay : p.maxDelayBetweenBytesMs = maxDelayBetweenBytesMs
  last : 0 < maxDelayBetweenBytesMs → p.last = last

theorem Between.late_eq {p : CCTalkParser τ} {m last : τ} (h : p.Between m last) (now : τ) :
    late p.maxDelayBetweenBytesMs p.last now = late m last now := by
  rw [h.delay]
  unfold late
  by_cases hm : 0 < m
  · rw [h.last hm]
  · simp [hm]

theorem between_transform {p : CCTalkParser τ} (h : p.bytes.WF) (now : τ) (chunk : Buffer) :
    (p.transform now chunk).state.Between p.maxDelayBetweenBytesMs now := by
  obtain ⟨-, -, hwf, hrest, hdelay, hlast⟩ := transform_spec h now chunk
  refine ⟨hwf, ?_, hdelay, hlast⟩
  rw [hrest]
  exact Cutter.next_rest _

/-- **The chunks of a burst behind its first** are cut behind what is left of the burst before them. -/
theorem run_gapless {p : CCTalkParser τ} {m : τ} {event : τ × Buffer} {events : List (τ × Buffer)}
    (h : p.Between m event.1) (hgapless : Gapless m (event :: events)) :
    (p.run events).error = none ∧ (p.run events).pushed = (frames.cut (p.bytes.bytes ++ events.flatMap Prod.snd)).1 ∧
      (p.run events).state.Between m ((event :: events).getLast (List.cons_ne_nil _ _)).1 := by
  induction events generalizing p event with
  | nil =>
    refine ⟨rfl, ?_, h⟩
    rw [List.flatMap_nil, List.append_nil, Cutter.cut_of_none h.rest]
    rfl
  | cons next events ih =>
    obtain ⟨hintime, hgapless'⟩ := List.isChain_cons_cons.1 hgapless
    have hkept : p.kept next.1 = p.bytes.bytes := by
      unfold kept
      rw [h.late_eq, if_neg]
      simpa using hintime
    obtain ⟨hok, hpushed, -, hrest, -, -⟩ := transform_spec h.wf next.1 next.2
    have hbetween := between_transform h.wf next.1 next.2
    rw [h.delay] at hbetween
    obtain ⟨hok', hpushed', hend⟩ := ih hbetween hgapless'
    rw [hkept] at hpushed hrest
    simp only [run, hok]
    refine ⟨hok', ?_, hend⟩
    rw [hpushed, hpushed', hrest, List.flatMap_cons, ← List.append_assoc,
      Cutter.cut_append (p.bytes.bytes ++ next.2)]

/-- **A burst** that finds nothing left before it. -/
theorem run_burst {p : CCTalkParser τ} {m : τ} {event : τ × Buffer} {events : List (τ × Buffer)} (hwf : p.bytes.WF)
    (hdelay : p.maxDelayBetweenBytesMs = m) (hkept : p.kept event.1 = []) (hgapless : Gapless m (event :: events)) :
    (p.run (event :: events)).error = none ∧ (p.run (event :: events)).pushed = burstFrames (event :: events) ∧
      (p.run (event :: events)).state.Between m ((event :: events).getLast (List.cons_ne_nil _ _)).1 := by
  obtain ⟨hok, hpushed, -, hrest, -, -⟩ := transform_spec hwf event.1 event.2
  have hbetween := between_transform hwf event.1 event.2
  rw [hdelay] at hbetween
  obtain ⟨hok', hpushed', hend⟩ := run_gapless hbetween hgapless
  rw [hkept, List.nil_append] at hpushed hrest
  simp only [run, hok]
  refine ⟨hok', ?_, hend⟩
  rw [hpushed, hpushed', hrest, burstFrames, List.flatMap_cons, Cutter.cut_append event.2]

/-- **Burst by burst.**  Each burst is cut by itself, where nothing is left before the first. -/
theorem run_bursts {m : τ} {groups : List (List (τ × Buffer))} (hne : [] ∉ groups)
    (hgapless : ∀ burst ∈ groups, Gapless m burst)
    (hlate : groups.IsChain fun a b => ∃ ha hb, (!late m (a.getLast ha).1 (b.head hb).1) = false) {p : CCTalkParser τ}
    (hwf : p.bytes.WF) (hdelay : p.maxDelayBetweenBytesMs = m)
    (hkept : ∀ burst ∈ groups.head?, ∀ event ∈ burst.head?, p.kept event.1 = []) :
    (p.run groups.flatten).error = none ∧ (p.run groups.flatten).pushed = groups.flatMap burstFrames := by
  induction groups generalizing p with
  | nil => exact ⟨rfl, rfl⟩
  | cons burst groups ih =>
    cases burst with
    | nil => exact absurd List.mem_cons_self hne
    | cons event events =>
      obtain ⟨hok, hpushed, hend⟩ := run_burst hwf hdelay (hkept _ rfl _ rfl) (hgapless _ List.mem_cons_self)
      have hrest := ih (fun hmem => hne (List.mem_cons_of_mem _ hmem))
        (fun burst hmem => hgapless burst (List.mem_cons_of_mem _ hmem)) hlate.tail hend.wf hend.delay ?_
      · rw [List.flatten_cons, run_append hok]
        exact ⟨hrest.1, by rw [hpushed, hrest.2, List.flatMap_cons]⟩
      · intro next hnext first hfirst
        obtain ⟨later, rfl⟩ : ∃ later, groups = next :: later := List.head?_eq_some_iff.1 hnext
        obtain ⟨ha, hb, hgap⟩ := (List.isChain_cons_cons.1 hlate).1
        have hhead : next.head hb = first := by
          rw [← Option.some_inj, ← List.head?_eq_some_head]
          exact hfirst
        unfold kept
        rw [hend.late_eq, if_pos]
        rw [← hhead]
        simpa using hgap

/-- **Framing restarts exactly at the gaps.**  For every maximum delay and every sequence of chunks and times, what is
pushed is, burst by burst, what the bytes of the burst are cut into. -/
theorem cctalk_bursts (maxDelayBetweenBytesMs : τ) (events : List (τ × Buffer)) :
    ((new maxDelayBetweenBytesMs).run events).error = none ∧
      ((new maxDelayBetweenBytesMs).run events).pushed =
        (bursts maxDelayBetweenBytesMs events).flatMap burstFrames := by
  have hlate := List.isChain_getLast_head_splitBy
    (fun before after : τ × Buffer => !late maxDelayBetweenBytesMs before.1 after.1) events
  have hrun := run_bursts (p := new maxDelayBetweenBytesMs) (List.nil_notMem_splitBy _ _)
    (fun _ hmem => List.isChain_of_mem_splitBy hmem) hlate ByteQueue.wf_empty rfl ?_
  · rw [List.flatten_splitBy] at hrun
    exact hrun
  · intro burst _ event _
    unfold kept
    split <;> rfl

end CCTalkParser

end NodeSerialport.Parsers
