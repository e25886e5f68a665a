import NodeSerialport.Lib.Frames

/-!
# Searching a text in its encoding

A code encodes every symbol by a nonempty word, and no word is a prefix of another.  Occurrences of an encoded
pattern in an encoded text correspond to occurrences of the pattern, but for those that start inside a word.

* `Code.encode_prefix_iff` — prefixes are preserved and reflected;
* `Inside d s` — the encoded pattern occurs at an offset inside the first word of `s`;
* `Aligned d s` — outside the occurrences at which `s` is cut, no such offset exists;
* `frames_encode`, `aligned_of_frames`: the encoded text is cut at the encoded occurrences exactly when it is aligned.
-/

namespace NodeSerialport.Lib

open Frames

/-- A prefix code: symbols as words. -/
structure Code (α β : Type*) where
  word : α → List β
  nonempty : ∀ a, word a ≠ []
  prefixFree : ∀ {a b x y}, word a ++ x = word b ++ y → a = b

namespace Code

variable {α β : Type*} (C : Code α β)

def encode (s : List α) : List β := s.flatMap C.word

variable {C} {d s t : List α}

@[simp] theorem encode_nil : C.encode [] = [] := rfl

@[simp] theorem encode_cons (a : α) : C.encode (a :: s) = C.word a ++ C.encode s := rfl

@[simp] theorem encode_append : C.encode (s ++ t) = C.encode s ++ C.encode t := by simp [encode]

theorem encode_eq_nil_iff : C.encode s = [] ↔ s = [] := by
  cases s with
  | nil => simp
  | cons a s => simp [C.nonempty a]

/-- **Prefixes.**  An encoded pattern starts an encoded text exactly when the pattern starts the text. -/
theorem encode_prefix_iff : C.encode d <+: C.encode s ↔ d <+: s := by
  induction d generalizing s with
  | nil => simp
  | cons a d ih =>
    cases s with
    | nil => simp [C.nonempty a]
    | cons b s =>
      constructor
      · rintro ⟨z, hz⟩
        rw [encode_cons, encode_cons, List.append_assoc] at hz
        obtain rfl := C.prefixFree hz
        have hrest : C.encode d <+: C.encode s := ⟨z, List.append_cancel_left hz⟩
        obtain ⟨t, ht⟩ := ih.1 hrest
        exact ⟨t, by rw [List.cons_append, ht]⟩
      · rintro ⟨z, hz⟩
        exact ⟨C.encode z, by rw [← encode_append, hz]⟩

theorem drop_encode_take (j : ℕ) : (C.encode s).drop (C.encode (s.take j)).length = C.encode (s.drop j) := by
  conv_lhs => rw [← List.take_append_drop j s, encode_append]
  rw [List.take_append_drop, List.drop_left]

theorem take_encode_take (j : ℕ) : (C.encode s).take (C.encode (s.take j)).length = C.encode (s.take j) := by
  conv_lhs => rw [← List.take_append_drop j s, encode_append]
  rw [List.take_append_drop, List.take_left]

theorem length_encode_take_mono {i j : ℕ} (h : i ≤ j) : (C.encode (s.take i)).length ≤ (C.encode (s.take j)).length := by
  have : s.take j = s.take i ++ (s.take j).drop i := by
    conv_lhs => rw [← List.take_append_drop i (s.take j), List.take_take, min_eq_left h]
  rw [this, encode_append, List.length_append]
  exact Nat.le_add_right _ _

theorem exists_offset {k : ℕ} (h : k < (C.encode s).length) :
    ∃ j a t o, s.drop j = a :: t ∧ o < (C.word a).length ∧ k = (C.encode (s.take j)).length + o := by
  induction s generalizing k with
  | nil => simp at h
  | cons a s ih =>
    by_cases hk : k < (C.word a).length
    · exact ⟨0, a, s, k, rfl, hk, by simp⟩
    · rw [encode_cons, List.length_append] at h
      obtain ⟨j, b, t, o, h1, h2, h3⟩ := ih (k := k - (C.word a).length) (by omega)
      refine ⟨j + 1, b, t, o, h1, h2, ?_⟩
      rw [List.take_succ_cons, encode_cons, List.length_append]
      omega

variable (C) in
/-- The encoded pattern occurs at an offset inside the first word of the encoded text. -/
def Inside (d s : List α) : Prop :=
  ∃ a t o, s = a :: t ∧ 0 < o ∧ o < (C.word a).length ∧ C.encode d <+: (C.encode s).drop o

theorem occurrence_cases {k : ℕ} (hk : k < (C.encode s).length) (h : C.encode d <+: (C.encode s).drop k) :
    ∃ j, (C.encode (s.take j)).length ≤ k ∧
      (k = (C.encode (s.take j)).length ∧ d <+: s.drop j ∨ C.Inside d (s.drop j)) := by
  obtain ⟨j, a, t, o, h1, h2, rfl⟩ := exists_offset hk
  rw [← List.drop_drop, drop_encode_take] at h
  refine ⟨j, Nat.le_add_right _ _, ?_⟩
  rcases Nat.eq_zero_or_pos o with rfl | ho
  · exact Or.inl ⟨rfl, encode_prefix_iff.1 (by simpa using h)⟩
  · exact Or.inr ⟨a, t, o, h1, ho, h2, h⟩

theorem Inside.occurrence {j : ℕ} (h : C.Inside d (s.drop j)) :
    ∃ k, k < (C.encode (s.take (j + 1))).length ∧ k ≤ (C.encode s).length ∧ C.encode d <+: (C.encode s).drop k := by
  obtain ⟨a, t, o, h1, -, h3, h4⟩ := h
  have hj : (C.encode (s.take (j + 1))).length = (C.encode (s.take j)).length + (C.word a).length := by
    rw [List.take_add, h1]
    simp
  have hle := length_encode_take_mono (C := C) (s := s) (Nat.le_max_left (j + 1) s.length)
  rw [List.take_of_length_le (Nat.le_max_right (j + 1) s.length)] at hle
  refine ⟨(C.encode (s.take j)).length + o, by omega, by omega, ?_⟩
  rwa [← List.drop_drop, drop_encode_take]

variable [DecidableEq α] [DecidableEq β]

/-! ### The earliest occurrence -/

/-- The earliest occurrence is found in the encoding, if none starts inside a word before it. -/
theorem indexOf_encode_some {i : ℕ} (h : indexOf d s = some i) (hclear : ∀ j < i, ¬ C.Inside d (s.drop j)) :
    indexOf (C.encode d) (C.encode s) = some (C.encode (s.take i)).length := by
  obtain ⟨hi, hpre, hfirst⟩ := indexOf_eq_some_iff.1 h
  have hle := length_encode_take_mono (C := C) (s := s) hi
  rw [List.take_of_length_le (le_refl s.length)] at hle
  refine indexOf_eq_some_iff.2 ⟨hle, ?_, ?_⟩
  · rw [drop_encode_take]
    exact encode_prefix_iff.2 hpre
  · intro k hk hocc
    obtain ⟨j, hjk, hj⟩ := occurrence_cases (by omega) hocc
    have hji : j < i := by
      by_contra hij
      have := length_encode_take_mono (C := C) (s := s) (Nat.le_of_not_lt hij)
      omega
    rcases hj with ⟨-, hd⟩ | hin
    · exact hfirst j hji hd
    · exact hclear j hji hin

theorem indexOf_encode_none (h : indexOf d s = none) (hclear : ∀ j, ¬ C.Inside d (s.drop j)) :
    indexOf (C.encode d) (C.encode s) = none := by
  rw [indexOf_eq_none_iff] at h ⊢
  intro k hk hocc
  rcases Nat.lt_or_ge k (C.encode s).length with hlt | hge
  · obtain ⟨j, hjk, ⟨rfl, hd⟩ | hin⟩ := occurrence_cases hlt hocc
    · rcases Nat.le_total j s.length with hj | hj
      · exact h j hj hd
      · rw [List.drop_eq_nil_of_le hj] at hd
        exact h s.length (le_refl _) (by rwa [List.drop_eq_nil_of_le (le_refl _)])
    · exact hclear j hin
  · -- the pattern is empty
    rw [List.drop_eq_nil_of_le hge, List.prefix_nil, encode_eq_nil_iff] at hocc
    subst hocc
    exact h 0 (Nat.zero_le _) (List.nil_prefix)

/-- An earliest occurrence in the encoding that starts with a word is the earliest one of the pattern. -/
theorem indexOf_of_encode_some {i : ℕ} (hi : i ≤ s.length)
    (h : indexOf (C.encode d) (C.encode s) = some (C.encode (s.take i)).length) :
    indexOf d s = some i ∧ ∀ j < i, ¬ C.Inside d (s.drop j) := by
  obtain ⟨-, hpre, hfirst⟩ := indexOf_eq_some_iff.1 h
  rw [drop_encode_take, encode_prefix_iff] at hpre
  constructor
  · refine indexOf_eq_some_iff.2 ⟨hi, hpre, ?_⟩
    intro j hj hd
    have hsucc := length_encode_take_mono (C := C) (s := s) (show j + 1 ≤ i from hj)
    have hlt : (C.encode (s.take j)).length < (C.encode (s.take (j + 1))).length := by
      have hjs : j < s.length := by omega
      have hword := List.length_pos_iff.2 (C.nonempty s[j])
      rw [List.take_succ_eq_append_getElem hjs, encode_append, List.length_append, encode_cons, encode_nil,
        List.append_nil]
      omega
    refine hfirst (C.encode (s.take j)).length (by omega) ?_
    rw [drop_encode_take]
    exact encode_prefix_iff.2 hd
  · intro j hj hin
    obtain ⟨k, hk, -, hocc⟩ := hin.occurrence
    have hsucc := length_encode_take_mono (C := C) (s := s) (show j + 1 ≤ i from hj)
    exact hfirst k (by omega) hocc

theorem indexOf_of_encode_none (h : indexOf (C.encode d) (C.encode s) = none) :
    indexOf d s = none ∧ ∀ j, ¬ C.Inside d (s.drop j) := by
  rw [indexOf_eq_none_iff] at h
  constructor
  · rw [indexOf_eq_none_iff]
    intro j hj hd
    have hle := length_encode_take_mono (C := C) (s := s) hj
    rw [List.take_of_length_le (le_refl s.length)] at hle
    refine h _ hle ?_
    rw [drop_encode_take]
    exact encode_prefix_iff.2 hd
  · intro j hin
    obtain ⟨k, -, hk, hocc⟩ := hin.occurrence
    exact h k hk hocc

/-! ### Frames -/

/-- Where the text is cut at the occurrences of the pattern, none starts inside a word of a piece. -/
inductive Aligned (C : Code α β) (d : List α) : List α → Prop
  | last {s : List α} : indexOf d s = none → (∀ j, ¬ C.Inside d (s.drop j)) → Aligned C d s
  | cut {s : List α} {i : ℕ} : indexOf d s = some i → (∀ j < i, ¬ C.Inside d (s.drop j)) →
    Aligned C d (s.drop (i + d.length)) →
      Aligned C d s

/-- **Searching the encoding.**  An aligned text is cut at the same places in its encoding. -/
theorem frames_encode (hd : d ≠ []) (h : C.Aligned d s) :
    frames (C.encode d) (C.encode s) = ((frames d s).1.map C.encode, C.encode (frames d s).2) := by
  have hde : C.encode d ≠ [] := fun he => hd (encode_eq_nil_iff.1 he)
  induction h with
  | last hnone hclear =>
    rw [frames_of_none hnone, frames_of_none (indexOf_encode_none hnone hclear)]
    rfl
  | @cut s i hsome hclear _ ih =>
    have hpre := (indexOf_eq_some_iff.1 hsome).2.1
    have hrest : (C.encode s).drop ((C.encode (s.take i)).length + (C.encode d).length) =
        C.encode (s.drop (i + d.length)) := by
      obtain ⟨t, ht⟩ := hpre
      rw [← List.drop_drop, drop_encode_take, ← List.drop_drop, ← ht, encode_append, List.drop_left, List.drop_left]
    rw [frames_of_some hde (indexOf_encode_some hsome hclear), frames_of_some hd hsome, hrest, ih, take_encode_take]
    rfl

/-- **The converse.**  A text whose encoding is cut into encodings is aligned. -/
theorem aligned_of_frames (hd : d ≠ []) {F : List (List α)} {r : List α}
    (h : frames (C.encode d) (C.encode s) = (F.map C.encode, C.encode r)) : C.Aligned d s := by
  have hde : C.encode d ≠ [] := fun he => hd (encode_eq_nil_iff.1 he)
  induction F generalizing s with
  | nil =>
    cases hk : indexOf (C.encode d) (C.encode s) with
    | none =>
      obtain ⟨hnone, hclear⟩ := indexOf_of_encode_none hk
      exact .last hnone hclear
    | some k =>
      rw [frames_of_some hde hk] at h
      cases (Prod.mk.inj h).1
  | cons f F ih =>
    cases hk : indexOf (C.encode d) (C.encode s) with
    | none =>
      rw [frames_of_none hk] at h
      cases (Prod.mk.inj h).1
    | some k =>
      rw [frames_of_some hde hk] at h
      obtain ⟨h1, h2⟩ := Prod.mk.inj h
      obtain ⟨hf, hF⟩ := List.cons.inj h1
      -- the first piece ends where a word starts
      have hkle : k ≤ (C.encode s).length := (indexOf_eq_some_iff.1 hk).1
      have hfs : f <+: s := encode_prefix_iff.1 (by rw [← hf]; exact List.take_prefix _ _)
      have hfk : k = (C.encode (s.take f.length)).length := by
        rw [← List.prefix_iff_eq_take.1 hfs, ← hf, List.length_take, min_eq_left hkle]
      rw [hfk] at hk
      obtain ⟨hsome, hclear⟩ := indexOf_of_encode_some hfs.length_le hk
      have hpre := (indexOf_eq_some_iff.1 hsome).2.1
      have hrest : (C.encode s).drop (k + (C.encode d).length) = C.encode (s.drop (f.length + d.length)) := by
        obtain ⟨t, ht⟩ := hpre
        rw [hfk, ← List.drop_drop, drop_encode_take, ← List.drop_drop, ← ht, encode_append, List.drop_left,
          List.drop_left]
      rw [hrest] at hF h2
      exact .cut hsome hclear (ih (Prod.ext hF h2))

omit [DecidableEq β] in
theorem aligned_of_not_inside (hd : d ≠ []) (hclear : ∀ t, ¬ C.Inside d t) : C.Aligned d s := by
  induction hn : s.length using Nat.strong_induction_on generalizing s with
  | _ n ih =>
    cases hi : indexOf d s with
    | none => exact .last hi fun j => hclear _
    | some i =>
      have h1 := indexOf_add_length_le hi
      have h2 : 0 < d.length := List.length_pos_iff.2 hd
      exact .cut hi (fun j _ => hclear _) (ih _ (by rw [List.length_drop]; omega) rfl)

end Code

end NodeSerialport.Lib
