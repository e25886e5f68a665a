import NodeSerialport.Lib.Cutter
import NodeSerialport.Lib.Transform
import NodeSerialport.Parsers.ByteQueue
/-!
# ByteLengthParser

`ts/lib/parsers/byte-length.ts` cuts its input into pieces of one length.

* `ByteLengthParser.transform`, `ByteLengthParser.flush` — the parser;
* `blocks` — the same cuts as a function of the bytes that have arrived;
* `byte_length_blocks` — for every cut of the input into chunks, the pieces are of that length, the last one is shorter, and
  together they are the input.
-/

namespace NodeSerialport.Parsers

open NodeSerialport.Lib

structure ByteLengthParser where
  length : ℕ
  bytes : ByteQueue := {}
  length_pos : 0 < length

namespace ByteLengthParser

/-- A number that was checked, with what the check says. -/
def checked {P : ℤ → Prop} (result : Except String ℤ) (hvalid : ∀ v, result = .ok v → P v) : Except String { v // P v } :=
  match result, hvalid with
  | .error message, _ => .error message
  | .ok v, hvalid => .ok ⟨v, hvalid v rfl⟩

theorem checked_eq_ok {P : ℤ → Prop} {result : Except String ℤ} {hvalid : ∀ v, result = .ok v → P v} {v : { v // P v }}
    (h : checked result hvalid = .ok v) : result = .ok v.1 := by
  cases result with
  | error message => cases h
  | ok value =>
    cases h
    rfl

/-- The constructor, with `options.length`. -/
def create (length : ℤ) : Except String ByteLengthParser :=
  (checked (integer length "length" 1 maxSafeInteger) fun _ h => (integer_eq_ok h).2.1).map fun length =>
    { length := length.1.toNat, length_pos := by have := length.2; omega }

/-- The loop of `_transform`. -/
def transformLoop (p : ByteLengthParser) : Outcome ByteLengthParser Buffer ParserError :=
  if p.bytes.length ≥ p.length then
    match _h : p.bytes.take p.length with
    | .error message => ⟨p, [], some (.thrown message)⟩
    | .ok (piece, bytes) =>
      let rest := transformLoop { p with bytes }
      ⟨rest.state, piece :: rest.pushed, rest.error⟩
  else ⟨p, [], none⟩
termination_by p.bytes.length
decreasing_by
  have hlen := ByteQueue.take_length _h
  have hpos := p.length_pos
  omega

def transform (p : ByteLengthParser) (chunk : Buffer) : Outcome ByteLengthParser Buffer ParserError :=
  transformLoop { p with bytes := p.bytes.append chunk }

def flush (p : ByteLengthParser) : Outcome ByteLengthParser Buffer ParserError :=
  match p.bytes.take p.bytes.length with
  | .error message => ⟨p, [], some (.thrown message)⟩
  | .ok (rest, bytes) => ⟨{ p with bytes }, [rest], none⟩

/-- The parser as a transform stream. -/
def stream : Transform ByteLengthParser UInt8 Buffer ParserError where
  transform := transform
  flush := flush

end ByteLengthParser

/-! ### Pieces of one length -/

/-- An input is cut into pieces of one length. -/
def blocks (n : ℕ) (hpos : 0 < n) : Cutter UInt8 Buffer where
  next x := if n ≤ x.length then some (n, some (x.take n)) else none
  pos := by
    intro x m o h
    split at h
    · rename_i hlen
      obtain ⟨rfl, -⟩ := Prod.mk.inj (Option.some.inj h)
      exact ⟨hpos, hlen⟩
    · cases h
  stable := by
    intro x r z h
    split at h
    · rename_i hlen
      cases h
      rw [if_pos (by rw [List.length_append]; omega), List.take_append_of_le_length hlen]
    · cases h

section Blocks

variable {n : ℕ} {hpos : 0 < n}

theorem blocks_take {x : Buffer} (h : n ≤ x.length) :
    (blocks n hpos).cut x = (x.take n :: ((blocks n hpos).cut (x.drop n)).1, ((blocks n hpos).cut (x.drop n)).2) :=
  Cutter.cut_of_some (C := blocks n hpos) (o := some (x.take n)) (if_pos h)

theorem blocks_rest {x : Buffer} (h : x.length < n) : (blocks n hpos).cut x = ([], x) :=
  Cutter.cut_of_none (if_neg (Nat.not_le.2 h))

variable (hpos) in
/-- **What the pieces are.** -/
theorem blocks_spec (x : Buffer) : (∀ piece ∈ ((blocks n hpos).cut x).1, piece.length = n) ∧
    ((blocks n hpos).cut x).2.length < n ∧ ((blocks n hpos).cut x).1.flatten ++ ((blocks n hpos).cut x).2 = x := by
  induction hn : x.length using Nat.strong_induction_on generalizing x with
  | _ m ih =>
    rcases Nat.lt_or_ge x.length n with hlt | hge
    · rw [blocks_rest hlt]
      exact ⟨fun piece hmem => absurd hmem List.not_mem_nil, hlt, rfl⟩
    · obtain ⟨hpieces, hrest, hall⟩ := ih (x.drop n).length (by rw [List.length_drop]; omega) (x.drop n) rfl
      rw [blocks_take hge]
      refine ⟨List.forall_mem_cons.2 ⟨by rw [List.length_take]; omega, hpieces⟩, hrest, ?_⟩
      rw [List.flatten_cons, List.append_assoc, hall, List.take_append_drop]

end Blocks

namespace ByteLengthParser

/-! ### Whole streams -/

theorem transformLoop_spec {p : ByteLengthParser} (h : p.bytes.WF) :
    p.transformLoop.error = none ∧ p.transformLoop.state.bytes.WF ∧ p.transformLoop.state.length = p.length ∧
      (blocks p.length p.length_pos).cut p.bytes.bytes = (p.transformLoop.pushed, p.transformLoop.state.bytes.bytes) := by
  induction hn : p.bytes.length using Nat.strong_induction_on generalizing p with
  | _ m ih =>
    have hlen := h.length_eq
    have hpos := p.length_pos
    rw [ByteLengthParser.transformLoop]
    by_cases hge : p.bytes.length ≥ p.length
    · rw [if_pos hge]
      obtain ⟨q, htake, hwf, hbytes⟩ := ByteQueue.take_spec h hge
      have hshort := ByteQueue.take_length htake
      split
      · rename_i e he
        rw [htake] at he
        cases he
      · rename_i piece bytes he
        rw [htake] at he
        obtain ⟨rfl, rfl⟩ := Prod.mk.inj (Except.ok.inj he)
        obtain ⟨hok, hwf', hkept, hcut⟩ := ih q.length (by omega) (p := { p with bytes := q }) hwf rfl
        refine ⟨hok, hwf', hkept, ?_⟩
        rw [blocks_take (by omega), ← hbytes, hcut]
    · rw [if_neg hge]
      exact ⟨rfl, h, rfl, blocks_rest (by omega)⟩

/-- After a run of chunks, the pieces of their concatenation were pushed, and the rest is kept. -/
theorem run_spec (p : ByteLengthParser) (hempty : p.bytes = {}) (chunks : List Buffer) :
    (stream.run p chunks).error = none ∧ (stream.run p chunks).state.bytes.WF ∧
      (blocks p.length p.length_pos).cut chunks.flatten =
        ((stream.run p chunks).pushed, (stream.run p chunks).state.bytes.bytes) := by
  have hstart : p.bytes.WF ∧ p.length = p.length ∧ (blocks p.length p.length_pos).cut [] = ([], p.bytes.bytes) := by
    rw [hempty]
    exact ⟨ByteQueue.wf_empty, rfl, blocks_rest p.length_pos⟩
  obtain ⟨hok, hwf, -, hcut⟩ := Transform.run_rule (T := stream)
    (fun x out q => q.bytes.WF ∧ q.length = p.length ∧ (blocks p.length p.length_pos).cut x = (out, q.bytes.bytes))
    (fun x out q c hR => by
      obtain ⟨hwf, hlength, hcut⟩ := hR
      obtain ⟨hwf', hbytes⟩ := ByteQueue.append_spec hwf c
      obtain ⟨hok, hwf'', hkept, hloop⟩ := transformLoop_spec (p := { q with bytes := q.bytes.append c }) hwf'
      refine ⟨hok, hwf'', hkept.trans hlength, ?_⟩
      have hsame : blocks q.length q.length_pos = blocks p.length p.length_pos := by simp only [hlength]
      change (blocks q.length q.length_pos).cut (q.bytes.append c).bytes = _ at hloop
      rw [hsame, hbytes] at hloop
      rw [Cutter.cut_append, hcut, hloop]
      rfl) hstart chunks
  exact ⟨hok, hwf, hcut⟩

theorem create_eq_ok {length : ℤ} {p : ByteLengthParser} (h : create length = .ok p) :
    (p.length : ℤ) = length ∧ p.bytes = {} := by
  unfold create at h
  cases hchecked : checked (integer length "length" 1 maxSafeInteger) fun _ h => (integer_eq_ok h).2.1 with
  | error message =>
    rw [hchecked] at h
    cases h
  | ok v =>
    rw [hchecked] at h
    cases h
    obtain ⟨hsame, hmin, -⟩ := integer_eq_ok (checked_eq_ok hchecked)
    rw [← hsame]
    exact ⟨Int.toNat_of_nonneg (by omega), rfl⟩

/-- **Pieces of one length.**  However its input arrives, the parser pushes pieces of the given length, and at the end one that is
shorter; together they are the input. -/
theorem byte_length_blocks {length : ℤ} {p : ByteLengthParser} (hp : create length = .ok p) (chunks : List Buffer) :
    (stream.runEnd p chunks).error = none ∧ ∃ pieces last, (stream.runEnd p chunks).pushed = pieces ++ [last] ∧
      (∀ piece ∈ pieces, (piece.length : ℤ) = length) ∧ (last.length : ℤ) < length ∧
      pieces.flatten ++ last = chunks.flatten ∧ pieces = (stream.run p chunks).pushed := by
  obtain ⟨hlength, hempty⟩ := create_eq_ok hp
  obtain ⟨hok, hwf, hcut⟩ := run_spec p hempty chunks
  obtain ⟨hpieces, hrest, hall⟩ := blocks_spec p.length_pos chunks.flatten
  rw [hcut] at hpieces hrest hall
  have hflush : stream.flush (stream.run p chunks).state =
      ⟨{ (stream.run p chunks).state with bytes := {} }, [(stream.run p chunks).state.bytes.bytes], none⟩ := by
    show flush _ = _
    simp only [flush, ByteQueue.take_all hwf]
  rw [Transform.runEnd_of_ok hok, hflush]
  refine ⟨rfl, _, _, rfl, fun piece hmem => ?_, ?_, hall, rfl⟩
  · rw [hpieces piece hmem, hlength]
  · rw [← hlength]
    exact_mod_cast hrest

theorem byte_length_blocks_three : ∃ p pieces last, create 3 = .ok p ∧
    (stream.runEnd p [[1], [2, 3, 4, 5], [], [6, 7, 8]]).pushed = pieces ++ [last] ∧
      pieces.flatten ++ last = [1, 2, 3, 4, 5, 6, 7, 8] := by
  have hp : create 3 = .ok { length := 3, length_pos := by decide } := rfl
  obtain ⟨-, pieces, last, hpushed, -, -, hall, -⟩ := byte_length_blocks hp [[1], [2, 3, 4, 5], [], [6, 7, 8]]
  exact ⟨_, pieces, last, hp, hpushed, hall⟩

end ByteLengthParser

end NodeSerialport.Parsers
