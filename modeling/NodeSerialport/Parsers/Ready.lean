import NodeSerialport.Lib.Transform
import NodeSerialport.Parsers.Matcher

/-!
# `ReadyParser`

Everything up to the first occurrence of a delimiter is dropped, everything behind it is passed on.

* `ReadyOutput` — the event `'ready'`, or a chunk that is pushed;
* `ReadyParser.Holds p input out` — nothing yet, or the event and then the bytes behind the first occurrence;
* `ready_passes`: what comes out for any chunks of an input.
-/

namespace NodeSerialport.Parsers

open NodeSerialport.Lib NodeSerialport.Lib.Border NodeSerialport.Lib.Frames

structure ReadyParser where
  matcher : DelimiterMatcher
  ready : Bool := false

inductive ReadyOutput where
  /-- `emit('ready')`. -/
  | ready
  | push (data : Buffer)
  deriving DecidableEq

namespace ReadyParser

def create (delimiter : Option Buffer) : Except String ReadyParser :=
  (DelimiterMatcher.create delimiter).map fun matcher => { matcher }

/-- The end of `_transform`, for what is not dropped of a chunk. -/
def pass (chunk : Buffer) (offset : ℕ) : List ReadyOutput :=
  if offset < chunk.length then [.push (chunk.drop offset)] else []

def transform (p : ReadyParser) (chunk : Buffer) : Outcome ReadyParser ReadyOutput ParserError :=
  if p.ready then ⟨p, pass chunk 0, none⟩
  else
    match p.matcher.find chunk 0 with
    | (none, matcher) => ⟨{ p with matcher }, [], none⟩
    | (some offset, matcher) => ⟨{ matcher, ready := true }, .ready :: pass chunk offset, none⟩

/-- The parser as a transform stream, which has no `_flush`. -/
def stream : Transform ReadyParser UInt8 ReadyOutput ParserError where
  transform := transform
  flush p := ⟨p, [], none⟩

/-- The bytes that are pushed. -/
def passed (out : List ReadyOutput) : Buffer :=
  out.flatMap fun output => match output with
    | .ready => []
    | .push data => data

@[simp] theorem passed_append (a b : List ReadyOutput) : passed (a ++ b) = passed a ++ passed b := List.flatMap_append

@[simp] theorem passed_pass (chunk : Buffer) (offset : ℕ) : passed (pass chunk offset) = chunk.drop offset := by
  unfold pass
  split
  · exact List.append_nil _
  · rename_i hend
    exact (List.drop_eq_nil_of_le (Nat.le_of_not_lt hend)).symm

theorem ready_not_mem_pass (chunk : Buffer) (offset : ℕ) : .ready ∉ pass chunk offset := by
  unfold pass
  split <;> simp

/-- What comes out for an input: nothing without the delimiter, or the event and then what follows the delimiter. -/
def Passes (d input : Buffer) (out : List ReadyOutput) : Prop :=
  match indexOf d input with
  | none => out = []
  | some i => ∃ pushes, out = .ready :: pushes ∧ .ready ∉ pushes ∧ passed pushes = input.drop (i + d.length)

/-- **What holds between two chunks.**  A parser that is not ready tracks its input. -/
structure Holds (d : Buffer) (p : ReadyParser) (input : Buffer) (out : List ReadyOutput) : Prop where
  passes : Passes d input out
  ready : p.ready = true ↔ (indexOf d input).isSome
  matcher : p.ready = false → p.matcher.WF ∧ p.matcher.delimiter = d ∧ p.matcher.Tracks input

theorem Holds.transform {d : Buffer} {p : ReadyParser} {input : Buffer} {out : List ReadyOutput} (h : Holds d p input out)
    (chunk : Buffer) :
    (p.transform chunk).error = none ∧
      Holds d (p.transform chunk).state (input ++ chunk) (out ++ (p.transform chunk).pushed) := by
  cases hready : p.ready with
  | true =>
    -- the delimiter lies in the input before this chunk
    obtain ⟨i, hi⟩ := Option.isSome_iff_exists.1 (h.ready.1 hready)
    have hle := indexOf_add_length_le hi
    have hpasses := h.passes
    simp only [Passes, hi] at hpasses
    obtain ⟨pushes, rfl, hnot, hpushes⟩ := hpasses
    have htransform : p.transform chunk = ⟨p, pass chunk 0, none⟩ := by
      simp [ReadyParser.transform, hready]
    rw [htransform]
    refine ⟨rfl, ?_, ?_, fun hno => absurd hready (by rw [hno]; simp)⟩
    · simp only [Passes, indexOf_append hi]
      refine ⟨pushes ++ pass chunk 0, rfl, ?_, ?_⟩
      · rw [List.mem_append, not_or]
        exact ⟨hnot, ready_not_mem_pass _ _⟩
      · rw [passed_append, hpushes, passed_pass, List.drop_zero, List.drop_append_of_le_length hle]
    · simp only [hready, indexOf_append hi, Option.isSome_some]
  | false =>
    obtain ⟨hwf, rfl, htracks⟩ := h.matcher hready
    have hnone := indexOf_eq_none_of_noEnd htracks.noEnd
    have hpasses := h.passes
    simp only [Passes, hnone] at hpasses
    subst hpasses
    rcases DelimiterMatcher.find_spec hwf htracks (Nat.zero_le chunk.length) with
      ⟨e, hfirst, hfind⟩ | ⟨hno, matcher, hfind, hsame, htracks'⟩
    · rw [List.drop_zero] at hfirst
      rw [Nat.zero_add] at hfind
      obtain ⟨hlen, hi⟩ := indexOf_firstEnd htracks.noEnd hfirst
      have htransform : p.transform chunk =
          ⟨{ matcher := p.matcher.reset, ready := true }, .ready :: pass chunk e, none⟩ := by
        simp [ReadyParser.transform, hready, hfind]
      rw [htransform]
      refine ⟨rfl, ?_, ?_, fun hno => by cases hno⟩
      · simp only [Passes, hi]
        refine ⟨pass chunk e, rfl, ready_not_mem_pass _ _, ?_⟩
        have hdrop : input.drop (input.length + e) = [] := List.drop_eq_nil_of_le (Nat.le_add_right _ _)
        rw [passed_pass, Nat.sub_add_cancel hlen, List.drop_append, hdrop, List.nil_append, Nat.add_sub_cancel_left]
      · simp [hi]
    · rw [List.drop_zero] at hno htracks'
      have htransform : p.transform chunk = ⟨{ p with matcher }, [], none⟩ := by
        simp [ReadyParser.transform, hready, hfind]
      have hnone' := indexOf_eq_none_of_noEnd (htracks.noEnd.append hno)
      rw [htransform]
      refine ⟨rfl, ?_, ?_, fun _ => ⟨hsame.wf hwf, hsame.1, htracks'⟩⟩
      · simp only [Passes, hnone']
        rfl
      · simp [hready, hnone']

/-- **What follows the handshake passes, and nothing else.**  For every delimiter that is not empty, every input and all of
its cuts into chunks: without the delimiter nothing comes out; otherwise the event comes once, before everything else, and
the chunks pushed behind it are what follows the first occurrence. -/
theorem ready_passes (d : Buffer) (hd : d ≠ []) (chunks : List Buffer) :
    ∃ p, create (some d) = .ok p ∧ (stream.runEnd p chunks).error = none ∧
      Passes d chunks.flatten (stream.runEnd p chunks).pushed := by
  obtain ⟨matcher, hm, hwf, hdelimiter, hmatched⟩ := DelimiterMatcher.create_of_ne hd
  have hnone : indexOf d [] = none := if_neg hd
  have hstart : Holds d { matcher } [] [] := by
    refine ⟨by simp only [Passes, hnone], by simp [hnone], fun _ => ⟨hwf, hdelimiter, DelimiterMatcher.tracks_nil hmatched⟩⟩
  obtain ⟨hok, hholds⟩ := Transform.run_rule (T := stream) (fun input out p => Holds d p input out)
    (fun _ _ _ chunk h => h.transform chunk) hstart chunks
  refine ⟨{ matcher }, by rw [create, hm]; rfl, ?_, ?_⟩
  · rw [Transform.runEnd_of_ok hok]
    rfl
  · rw [Transform.runEnd_of_ok hok]
    simpa [stream] using hholds.passes

/-- A prefix of the delimiter starts again inside another. -/
theorem ready_passes_restart : ∃ p, create (some [1, 1, 2]) = .ok p ∧
    (stream.runEnd p [[1, 1], [1, 2, 7], [8]]).error = none ∧
    Passes [1, 1, 2] [1, 1, 1, 2, 7, 8] (stream.runEnd p [[1, 1], [1, 2, 7], [8]]).pushed :=
  ready_passes [1, 1, 2] (by decide) [[1, 1], [1, 2, 7], [8]]

end ReadyParser

end NodeSerialport.Parsers
