import NodeSerialport.Lib.Border

/-!
# Cutting a text at the occurrences of a delimiter

* `indexOf p s` — where the earliest occurrence of `p` in `s` starts;
* `frames p s` — the pieces between the earliest non-overlapping occurrences of `p`, and the remainder;
* `parts p s` — the same pieces with the remainder as the last of them;
* `FirstEnd p s t e` — reading `t` after `s`, the pattern is first completed after `e` symbols;
* `frames_firstEnd`: a text read in two parts is cut at the first end of an occurrence.
-/

namespace NodeSerialport.Lib.Frames

open NodeSerialport.Lib.Border

variable {α : Type*} [DecidableEq α]

/-! ### The earliest occurrence -/

/-- Where the earliest occurrence of `p` in `s` starts. -/
def indexOf (p : List α) : List α → Option ℕ
  | [] => if p = [] then some 0 else none
  | a :: s => if p <+: a :: s then some 0 else (indexOf p s).map (· + 1)

theorem indexOf_eq_some_iff {p : List α} : ∀ {s : List α} {i : ℕ},
    indexOf p s = some i ↔ i ≤ s.length ∧ p <+: s.drop i ∧ ∀ j < i, ¬ p <+: s.drop j := by
  intro s
  induction s with
  | nil =>
    intro i
    by_cases hp : p = []
    · simp only [indexOf, hp, if_true, Option.some.injEq]
      constructor
      · rintro rfl
        simp
      · rintro ⟨h, -⟩
        exact (Nat.le_zero.1 h).symm
    · simp [indexOf, hp]
  | cons a s ih =>
    intro i
    by_cases hp : p <+: a :: s
    · simp only [indexOf, hp, if_true, Option.some.injEq]
      constructor
      · rintro rfl
        exact ⟨Nat.zero_le _, hp, by simp⟩
      · rintro ⟨-, -, h⟩
        by_contra hi
        exact h 0 (by omega) hp
    · simp only [indexOf, hp, if_false, Option.map_eq_some_iff]
      constructor
      · rintro ⟨k, hk, rfl⟩
        obtain ⟨h1, h2, h3⟩ := ih.1 hk
        refine ⟨by simpa using h1, by simpa using h2, ?_⟩
        intro j hj
        cases j with
        | zero => simpa using hp
        | succ j => simpa using h3 j (by omega)
      · rintro ⟨h1, h2, h3⟩
        cases i with
        | zero => exact absurd h2 (by simpa using hp)
        | succ k =>
          refine ⟨k, ih.2 ⟨by simpa using h1, by simpa using h2, ?_⟩, rfl⟩
          intro j hj
          simpa using h3 (j + 1) (by omega)

theorem indexOf_eq_none_iff {p s : List α} : indexOf p s = none ↔ ∀ j ≤ s.length, ¬ p <+: s.drop j := by
  induction s with
  | nil => simp [indexOf]
  | cons a s ih =>
    by_cases hp : p <+: a :: s
    · simp only [indexOf, hp, if_true, reduceCtorEq, false_iff]
      intro h
      exact h 0 (Nat.zero_le _) hp
    · simp only [indexOf, hp, if_false, Option.map_eq_none_iff, ih]
      constructor
      · intro h j hj
        cases j with
        | zero => simpa using hp
        | succ j => simpa using h j (by simpa using hj)
      · intro h j hj
        simpa using h (j + 1) (by simpa using hj)

theorem indexOf_add_length_le {p s : List α} {i : ℕ} (h : indexOf p s = some i) :
    i + p.length ≤ s.length := by
  obtain ⟨h1, h2, -⟩ := indexOf_eq_some_iff.1 h
  have := h2.length_le
  rw [List.length_drop] at this
  omega

/-! ### Frames -/

set_option linter.unusedVariables false in
/-- The pieces of `s` between the earliest non-overlapping occurrences of `p`, and what follows the last of
them. -/
def frames (p : List α) (s : List α) : List (List α) × List α :=
  if hp : p = [] then ([], s)
  else
    match h : indexOf p s with
    | none => ([], s)
    | some i =>
      let rest := frames p (s.drop (i + p.length))
      (s.take i :: rest.1, rest.2)
termination_by s.length
decreasing_by
  have h1 := indexOf_add_length_le h
  have h2 : 0 < p.length := List.length_pos_iff.2 hp
  rw [List.length_drop]
  omega

theorem frames_of_none {p s : List α} (h : indexOf p s = none) : frames p s = ([], s) := by
  unfold frames
  split
  · rfl
  · split
    · rfl
    · rename_i h'
      rw [h] at h'
      cases h'

theorem frames_of_some {p s : List α} {i : ℕ} (hp : p ≠ []) (h : indexOf p s = some i) :
    frames p s = (s.take i :: (frames p (s.drop (i + p.length))).1, (frames p (s.drop (i + p.length))).2) := by
  rw [frames]
  rw [dif_neg hp]
  split
  · rename_i h'
    rw [h] at h'
    cases h'
  · rename_i i' h'
    rw [h] at h'
    obtain rfl := Option.some.inj h'
    rfl

/-- The frames of a text, and its remainder as the last part. -/
def parts (p s : List α) : List (List α) := (frames p s).1 ++ [(frames p s).2]

/-! ### Occurrences by where they end -/

/-- No occurrence of `p` ends while `t` is read after `s`. -/
def NoEnd (p s t : List α) : Prop := ∀ e ≤ t.length, ¬ p <:+ s ++ t.take e

/-- Reading `t` after `s`, the pattern is first completed after `e` symbols of `t`. -/
def FirstEnd (p s t : List α) (e : ℕ) : Prop :=
  e ≤ t.length ∧ p <:+ s ++ t.take e ∧ ∀ e' < e, ¬ p <:+ s ++ t.take e'

omit [DecidableEq α] in
theorem prefix_drop_iff_suffix_take {p s : List α} {j : ℕ} (h : j + p.length ≤ s.length) :
    p <+: s.drop j ↔ p <:+ s.take (j + p.length) := by
  rw [List.prefix_iff_eq_take, List.suffix_iff_eq_drop, List.take_drop, List.length_take,
    min_eq_left (by omega), Nat.add_sub_cancel]

omit [DecidableEq α] in
theorem NoEnd.append {p s t u : List α} (h : NoEnd p s t) (h' : NoEnd p (s ++ t) u) : NoEnd p s (t ++ u) := by
  intro e he
  rw [List.length_append] at he
  by_cases hte : e ≤ t.length
  · rw [List.take_append_of_le_length hte]
    exact h e hte
  · rw [List.take_append, List.take_of_length_le (by omega), ← List.append_assoc]
    exact h' (e - t.length) (by omega)

theorem indexOf_eq_none_of_noEnd {p s : List α} (h : NoEnd p [] s) : indexOf p s = none := by
  rw [indexOf_eq_none_iff]
  intro j hj hpre
  have hlen := hpre.length_le
  rw [List.length_drop] at hlen
  exact h (j + p.length) (by omega) ((prefix_drop_iff_suffix_take (by omega)).1 hpre)

theorem noEnd_of_indexOf_eq_none {p s : List α} (h : indexOf p s = none) : NoEnd p [] s := by
  rw [indexOf_eq_none_iff] at h
  intro e he hsuf
  rw [List.nil_append] at hsuf
  have hlen := hsuf.length_le
  rw [List.length_take, min_eq_left he] at hlen
  refine h (e - p.length) (by omega) ?_
  rw [prefix_drop_iff_suffix_take (by omega), Nat.sub_add_cancel hlen]
  exact hsuf

theorem firstEnd_of_indexOf_eq_some {p s : List α} {i : ℕ} (h : indexOf p s = some i) :
    FirstEnd p [] s (i + p.length) := by
  have hle := indexOf_add_length_le h
  obtain ⟨-, h2, h3⟩ := indexOf_eq_some_iff.1 h
  refine ⟨hle, (prefix_drop_iff_suffix_take hle).1 h2, ?_⟩
  intro e he hsuf
  rw [List.nil_append] at hsuf
  have hlen := hsuf.length_le
  rw [List.length_take, min_eq_left (by omega)] at hlen
  refine h3 (e - p.length) (by omega) ?_
  rw [prefix_drop_iff_suffix_take (by omega), Nat.sub_add_cancel hlen]
  exact hsuf

/-- Reading `t` after `s`, which contains no occurrence, the earliest occurrence is the one completed first. -/
theorem indexOf_firstEnd {p s t : List α} {e : ℕ} (hs : NoEnd p [] s) (h : FirstEnd p s t e) :
    p.length ≤ s.length + e ∧ indexOf p (s ++ t) = some (s.length + e - p.length) := by
  obtain ⟨he, hend, hfirst⟩ := h
  have hlen := hend.length_le
  rw [List.length_append, List.length_take, min_eq_left he] at hlen
  have htake : (s ++ t).take (s.length + e) = s ++ t.take e := by
    rw [List.take_append, List.take_of_length_le (by omega)]
    simp
  refine ⟨hlen, ?_⟩
  rw [indexOf_eq_some_iff]
  refine ⟨by rw [List.length_append]; omega, ?_, ?_⟩
  · rw [prefix_drop_iff_suffix_take (by rw [List.length_append]; omega), Nat.sub_add_cancel hlen, htake]
    exact hend
  · -- an earlier start would end inside `s`, or before `e`
    intro j hj hpre
    rw [prefix_drop_iff_suffix_take (by rw [List.length_append]; omega)] at hpre
    rw [List.take_append] at hpre
    by_cases hjs : j + p.length ≤ s.length
    · rw [Nat.sub_eq_zero_of_le hjs, List.take_zero, List.append_nil] at hpre
      exact hs _ hjs hpre
    · rw [List.take_of_length_le (by omega)] at hpre
      exact hfirst (j + p.length - s.length) (by omega) hpre

theorem indexOf_append {p s : List α} {i : ℕ} (h : indexOf p s = some i) (t : List α) : indexOf p (s ++ t) = some i := by
  have hle := indexOf_add_length_le h
  obtain ⟨-, hpre, hfirst⟩ := indexOf_eq_some_iff.1 h
  rw [indexOf_eq_some_iff]
  refine ⟨by rw [List.length_append]; omega, ?_, fun j hj hpre' => hfirst j hj ?_⟩
  · rw [List.drop_append_of_le_length (by omega)]
    exact hpre.trans (List.prefix_append _ _)
  · rw [List.drop_append_of_le_length (by omega)] at hpre'
    exact List.prefix_of_prefix_length_le hpre' (List.prefix_append _ _) (by rw [List.length_drop]; omega)

/-- **A text read in two parts.**  If `s` contains no occurrence and reading `t` first completes one after `e`
symbols, the first frame is what stands before that occurrence, and cutting goes on behind it. -/
theorem frames_firstEnd {p s t : List α} {e : ℕ} (hp : p ≠ []) (hs : NoEnd p [] s) (h : FirstEnd p s t e) :
    frames p (s ++ t) =
      ((s ++ t.take e).take (s.length + e - p.length) :: (frames p (t.drop e)).1, (frames p (t.drop e)).2) := by
  obtain ⟨hlen, hi⟩ := indexOf_firstEnd hs h
  have htake : (s ++ t).take (s.length + e) = s ++ t.take e := by
    rw [List.take_append, List.take_of_length_le (by omega)]
    simp
  have hcut : s.length + e - p.length + p.length = s.length + e := Nat.sub_add_cancel hlen
  rw [frames_of_some hp hi, hcut, List.drop_append, List.drop_eq_nil_of_le (by omega), List.nil_append,
    Nat.add_sub_cancel_left, ← htake, List.take_take, min_eq_left (by omega)]

omit [DecidableEq α] in
theorem FirstEnd.append {p s t : List α} {e : ℕ} (h : FirstEnd p s t e) (u : List α) : FirstEnd p s (t ++ u) e := by
  obtain ⟨h1, h2, h3⟩ := h
  refine ⟨by rw [List.length_append]; omega, ?_, ?_⟩
  · rwa [List.take_append_of_le_length h1]
  · intro e' he'
    rw [List.take_append_of_le_length (by omega)]
    exact h3 e' he'

theorem frames_firstEnd_append {p s t : List α} {e : ℕ} (hp : p ≠ []) (hs : NoEnd p [] s) (h : FirstEnd p s t e)
    (u : List α) :
    frames p (s ++ t ++ u) =
      ((s ++ t.take e).take (s.length + e - p.length) :: (frames p (t.drop e ++ u)).1,
        (frames p (t.drop e ++ u)).2) := by
  rw [List.append_assoc, frames_firstEnd hp hs (h.append u), List.take_append_of_le_length h.1,
    List.drop_append_of_le_length h.1]

theorem parts_firstEnd_append {p s t : List α} {e : ℕ} (hp : p ≠ []) (hs : NoEnd p [] s) (h : FirstEnd p s t e)
    (u : List α) :
    parts p (s ++ t ++ u) = (s ++ t.take e).take (s.length + e - p.length) :: parts p (t.drop e ++ u) := by
  rw [parts, frames_firstEnd_append hp hs h u, List.cons_append, parts]

theorem le_indexOf_append {p s t : List α} {m i : ℕ} (hs : NoEnd p [] s) (hm : IsLongest p s (p.length - 1) m)
    (h : indexOf p (s ++ t) = some i) : s.length ≤ i + m := by
  by_contra hlt
  obtain ⟨-, hpre, -⟩ := indexOf_eq_some_iff.1 h
  rw [List.drop_append_of_le_length (by omega)] at hpre
  have hlen : (s.drop i).length = s.length - i := List.length_drop
  by_cases hle : p.length ≤ s.length - i
  · -- the occurrence would end inside `s`
    have hin : p <+: s.drop i := List.prefix_of_prefix_length_le hpre (List.prefix_append _ _) (by omega)
    exact indexOf_eq_none_iff.1 (indexOf_eq_none_of_noEnd hs) i (by omega) hin
  · have hin : s.drop i <+: p := List.prefix_of_prefix_length_le (List.prefix_append _ _) hpre (by omega)
    have heq : p.take (s.length - i) = s.drop i := by
      rw [← hlen]
      exact (List.prefix_iff_eq_take.1 hin).symm
    have := hm.2.2 (s.length - i) (by omega) (heq ▸ List.drop_suffix i s)
    omega

theorem parts_head {p s : List α} {m : ℕ} (hp : p ≠ []) (hs : NoEnd p [] s) (hm : IsLongest p s (p.length - 1) m)
    (t : List α) : ∃ part later, parts p (s ++ t) = part :: later ∧ s.length ≤ part.length + m := by
  cases h : indexOf p (s ++ t) with
  | none =>
    refine ⟨s ++ t, [], by rw [parts, frames_of_none h, List.nil_append], ?_⟩
    rw [List.length_append]
    omega
  | some i =>
    refine ⟨(s ++ t).take i, _, by rw [parts, frames_of_some hp h, List.cons_append], ?_⟩
    have hle := indexOf_add_length_le h
    have hge := le_indexOf_append hs hm h
    rw [List.length_take, min_eq_left (by omega)]
    exact hge

end NodeSerialport.Lib.Frames
