import Mathlib.Tactic.Common

/-!
# Transform streams

A transform stream consumes chunks, pushes outputs and may report an error; no chunk is handed over after an
error.  `Transform.run_rule` is the rule for "the outputs depend on the concatenated input only": an invariant
relating the symbols read so far, the outputs pushed so far and the state, kept by every single chunk, holds
after any sequence of chunks.
-/

namespace NodeSerialport.Lib

/-- What one call of a transform does: the state it leaves, the outputs it pushes in order, the error it reports. -/
structure Outcome (σ β ε : Type*) where
  state : σ
  pushed : List β
  error : Option ε

/-- A transform stream over chunks of `α`. -/
structure Transform (σ α β ε : Type*) where
  transform : σ → List α → Outcome σ β ε
  flush : σ → Outcome σ β ε

namespace Transform

variable {σ α β ε : Type*} (T : Transform σ α β ε)

/-- Hand over the chunks one by one until one of them is answered with an error. -/
def run (s : σ) : List (List α) → Outcome σ β ε
  | [] => ⟨s, [], none⟩
  | c :: cs =>
    let o := T.transform s c
    match o.error with
    | some e => ⟨o.state, o.pushed, some e⟩
    | none =>
      let r := run o.state cs
      ⟨r.state, o.pushed ++ r.pushed, r.error⟩

/-- All chunks, then the end of the input. -/
def runEnd (s : σ) (cs : List (List α)) : Outcome σ β ε :=
  let r := T.run s cs
  match r.error with
  | some e => ⟨r.state, r.pushed, some e⟩
  | none =>
    let o := T.flush r.state
    ⟨o.state, r.pushed ++ o.pushed, o.error⟩

variable {T}

theorem run_cons_of_error {s : σ} {c : List α} {cs : List (List α)} {e : ε}
    (h : (T.transform s c).error = some e) : T.run s (c :: cs) = T.transform s c := by
  simp only [run, h]
  rw [← h]

theorem run_cons_of_ok {s : σ} {c : List α} {cs : List (List α)} (h : (T.transform s c).error = none) :
    T.run s (c :: cs) =
      ⟨(T.run (T.transform s c).state cs).state, (T.transform s c).pushed ++ (T.run (T.transform s c).state cs).pushed,
        (T.run (T.transform s c).state cs).error⟩ := by
  simp only [run, h]

theorem runEnd_of_ok {s : σ} {cs : List (List α)} (h : (T.run s cs).error = none) :
    T.runEnd s cs =
      ⟨(T.flush (T.run s cs).state).state, (T.run s cs).pushed ++ (T.flush (T.run s cs).state).pushed,
        (T.flush (T.run s cs).state).error⟩ := by
  simp only [runEnd, h]

theorem runEnd_of_error {s : σ} {cs : List (List α)} {e : ε} (h : (T.run s cs).error = some e) :
    T.runEnd s cs = ⟨(T.run s cs).state, (T.run s cs).pushed, some e⟩ := by
  simp only [runEnd, h]

/-- **The chunk rule.**  An invariant of the symbols read, the outputs pushed and the state that every chunk
keeps without an error holds after every sequence of chunks, of their concatenation. -/
theorem run_rule (R : List α → List β → σ → Prop)
    (hstep : ∀ x F s c, R x F s →
      (T.transform s c).error = none ∧ R (x ++ c) (F ++ (T.transform s c).pushed) (T.transform s c).state)
    {x : List α} {F : List β} {s : σ} (h : R x F s) (cs : List (List α)) :
    (T.run s cs).error = none ∧ R (x ++ cs.flatten) (F ++ (T.run s cs).pushed) (T.run s cs).state := by
  induction cs generalizing x F s with
  | nil =>
    refine ⟨rfl, ?_⟩
    simpa [run] using h
  | cons c cs ih =>
    obtain ⟨hok, hR⟩ := hstep x F s c h
    obtain ⟨ih1, ih2⟩ := ih hR
    rw [run_cons_of_ok hok]
    refine ⟨ih1, ?_⟩
    simpa only [List.flatten_cons, List.append_assoc] using ih2

end Transform

end NodeSerialport.Lib
