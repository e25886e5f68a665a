import Mathlib.Data.List.Infix
import Mathlib.Data.Nat.Find
import Mathlib.Tactic.Common

/-!
# Borders: the longest prefix of a pattern that ends a text

The mathematics of prefix-function matching, over an arbitrary alphabet.

* `IsLongest p s n m` — among the lengths `k ≤ n`, `m` is the greatest with `p.take k` a suffix of `s`;
* `IsTable p n π` — `π i` is the longest proper border of `p.take (i + 1)` for every index `i < n`;
* `fallback π p a fuel m` — the loop that shortens `m` along `π` until `p` can be extended by `a`;
* `advance_isLongest`: one turn of the automaton keeps the longest suffix (`IsLongest.snoc` read off a table);
* `fallback?`, `advance?` — the same with checked accesses; `fallback?_eq`: the loop ends, with every index in range;
* `IsLongest.forget`: a text that ends in no nonempty prefix of `p` can be forgotten;
* `isLongest_drop_iff`: only the last symbols of a text matter.
-/

namespace NodeSerialport.Lib.Border

variable {α : Type*}

/-! ### The longest prefix that is a suffix -/

/-- Among the lengths `k ≤ n`, `m` is the greatest for which `p.take k` is a suffix of `s`. -/
def IsLongest (p s : List α) (n m : ℕ) : Prop :=
  m ≤ n ∧ p.take m <:+ s ∧ ∀ k ≤ n, p.take k <:+ s → k ≤ m

theorem isLongest_nil {p : List α} {n : ℕ} (hn : n ≤ p.length) : IsLongest p [] n 0 := by
  refine ⟨Nat.zero_le _, by simp, ?_⟩
  intro k hk h
  have hlen : (p.take k).length = 0 := by rw [List.suffix_nil.1 h]; rfl
  rw [List.length_take] at hlen
  omega

/-- A prefix extended by one symbol ends `s ++ [a]` exactly when the symbol is `a` and the shorter prefix
ends `s`. -/
theorem take_succ_suffix_snoc {p s : List α} {k : ℕ} {a : α} (hk : k < p.length) :
    p.take (k + 1) <:+ s ++ [a] ↔ p.take k <:+ s ∧ p[k]? = some a := by
  rw [List.take_succ_eq_append_getElem hk, List.getElem?_eq_getElem hk]
  constructor
  · rintro ⟨t, ht⟩
    rw [← List.append_assoc] at ht
    obtain ⟨h1, h2⟩ := List.append_inj' ht rfl
    exact ⟨⟨t, h1⟩, by simpa using h2⟩
  · rintro ⟨⟨t, ht⟩, ha⟩
    refine ⟨t, ?_⟩
    rw [← List.append_assoc, ht, Option.some.inj ha]

theorem take_suffix_take {p s : List α} {k m : ℕ} (hk : p.take k <:+ s) (hm : p.take m <:+ s) (hkm : k ≤ m) :
    p.take k <:+ p.take m := by
  refine List.suffix_of_suffix_length_le hk hm ?_
  simp only [List.length_take]
  omega

/-- **One symbol more.**  If `m` is the longest for `s`, and `r` is the longest prefix ending `p.take m` that `a`
extends, then `r + 1` is the longest for `s ++ [a]`. -/
theorem IsLongest.snoc {p s : List α} {n m r : ℕ} {a : α} (h : IsLongest p s n m) (hn : n < p.length)
    (hr : p.take r <:+ p.take m) (hrm : r ≤ m) (hra : p[r]? = some a)
    (hmax : ∀ k ≤ m, p.take k <:+ p.take m → p[k]? = some a → k ≤ r) :
    IsLongest p (s ++ [a]) (n + 1) (r + 1) := by
  obtain ⟨hmn, hms, hm⟩ := h
  refine ⟨by omega, (take_succ_suffix_snoc (by omega)).2 ⟨hr.trans hms, hra⟩, ?_⟩
  intro k hk hks
  cases k with
  | zero => omega
  | succ k =>
    obtain ⟨h1, h2⟩ := (take_succ_suffix_snoc (by omega)).1 hks
    have hkm := hm k (by omega) h1
    have := hmax k hkm (take_suffix_take h1 hms hkm) h2
    omega

theorem IsLongest.snoc_zero {p s : List α} {n m : ℕ} {a : α} (h : IsLongest p s n m) (hn : n < p.length)
    (hmax : ∀ k ≤ m, p.take k <:+ p.take m → p[k]? ≠ some a) : IsLongest p (s ++ [a]) (n + 1) 0 := by
  obtain ⟨hmn, hms, hm⟩ := h
  refine ⟨Nat.zero_le _, by simp, ?_⟩
  intro k hk hks
  cases k with
  | zero => exact le_rfl
  | succ k =>
    obtain ⟨h1, h2⟩ := (take_succ_suffix_snoc (by omega)).1 hks
    have hkm := hm k (by omega) h1
    exact absurd h2 (hmax k hkm (take_suffix_take h1 hms hkm))

/-- **Forgetting.**  A text that ends in no nonempty prefix of length at most `n` contributes nothing to the
prefixes that end a continuation `s ++ t`. -/
theorem IsLongest.forget {p s t : List α} {n k : ℕ} (h : IsLongest p s n 0) (hk : k ≤ n + t.length) :
    p.take k <:+ s ++ t ↔ p.take k <:+ t := by
  constructor
  · intro hks
    by_cases hlen : (p.take k).length ≤ t.length
    · exact List.suffix_of_suffix_length_le hks (List.suffix_append s t) hlen
    · -- the part of the prefix that reaches into `s` is itself a nonempty prefix ending `s`
      exfalso
      have htk : t <:+ p.take k := List.suffix_of_suffix_length_le (List.suffix_append s t) hks (by omega)
      obtain ⟨u, hu⟩ := htk
      have hus : u <:+ s := by
        rw [← hu] at hks
        obtain ⟨w, hw⟩ := hks
        rw [← List.append_assoc] at hw
        exact ⟨w, List.append_cancel_right hw⟩
      have hul : u.length + t.length = (p.take k).length := by rw [← hu, List.length_append]
      have hup : p.take u.length = u := by
        have h1 := congrArg (List.take u.length) hu
        rw [List.take_left, List.take_take, min_eq_left (by rw [List.length_take] at hul; omega)] at h1
        exact h1.symm
      have hk' : (p.take k).length ≤ k := by rw [List.length_take]; omega
      have := h.2.2 u.length (by omega) (by rw [hup]; exact hus)
      omega
  · intro hks
    exact hks.trans (List.suffix_append s t)

theorem IsLongest.forget_iff {p s t : List α} {n m : ℕ} (h : IsLongest p s n 0) :
    IsLongest p (s ++ t) n m ↔ IsLongest p t n m := by
  unfold IsLongest
  constructor
  · rintro ⟨h1, h2, h3⟩
    exact ⟨h1, (h.forget (by omega)).1 h2, fun k hk hks => h3 k hk ((h.forget (by omega)).2 hks)⟩
  · rintro ⟨h1, h2, h3⟩
    exact ⟨h1, (h.forget (by omega)).2 h2, fun k hk hks => h3 k hk ((h.forget (by omega)).1 hks)⟩

/-- Only the last `n` symbols of a text matter. -/
theorem isLongest_drop_iff {p s : List α} {n m i : ℕ} (hi : i + n ≤ s.length) :
    IsLongest p (s.drop i) n m ↔ IsLongest p s n m := by
  have key : ∀ k ≤ n, p.take k <:+ s.drop i ↔ p.take k <:+ s := by
    intro k hk
    constructor
    · intro h
      exact h.trans (List.drop_suffix i s)
    · intro h
      refine List.suffix_of_suffix_length_le h (List.drop_suffix i s) ?_
      simp only [List.length_take, List.length_drop]
      omega
  unfold IsLongest
  constructor
  · rintro ⟨h1, h2, h3⟩
    exact ⟨h1, (key m h1).1 h2, fun k hk hks => h3 k hk ((key k hk).2 hks)⟩
  · rintro ⟨h1, h2, h3⟩
    exact ⟨h1, (key m h1).2 h2, fun k hk hks => h3 k hk ((key k hk).1 hks)⟩

theorem IsLongest.lower {p s : List α} {n n' m : ℕ} (h : IsLongest p s n m) (hm : m ≤ n') (hn : n' ≤ n) :
    IsLongest p s n' m :=
  ⟨hm, h.2.1, fun k hk hks => h.2.2 k (hk.trans hn) hks⟩

/-! ### The prefix table -/

/-- `π` is the prefix function of `p` on the indices below `n`. -/
def IsTable (p : List α) (n : ℕ) (π : ℕ → ℕ) : Prop :=
  ∀ i < n, IsLongest p (p.take (i + 1)) i (π i)

section Fallback

variable [DecidableEq α]

/-- Shorten the matched length along the table until `a` extends the prefix, or nothing is left.  The fuel
bounds the number of turns; `m` turns are always enough. -/
def fallback (π : ℕ → ℕ) (p : List α) (a : α) : ℕ → ℕ → ℕ
  | 0, m => m
  | fuel + 1, m => if m ≠ 0 ∧ p[m]? ≠ some a then fallback π p a fuel (π (m - 1)) else m

/-- The loop stops at the longest prefix ending `p.take m` that `a` extends, or at `0`. -/
theorem fallback_spec {p : List α} {n : ℕ} {π : ℕ → ℕ} (hπ : IsTable p n π) (a : α) :
    ∀ (fuel m : ℕ), m ≤ fuel → m ≤ n →
      p.take (fallback π p a fuel m) <:+ p.take m ∧ fallback π p a fuel m ≤ m ∧
      (fallback π p a fuel m = 0 ∨ p[fallback π p a fuel m]? = some a) ∧
      ∀ k ≤ m, p.take k <:+ p.take m → p[k]? = some a → k ≤ fallback π p a fuel m := by
  intro fuel
  induction fuel with
  | zero =>
    intro m hm _
    have h0 : m = 0 := by omega
    subst h0
    exact ⟨List.suffix_rfl, le_rfl, Or.inl rfl, fun k hk _ _ => hk⟩
  | succ fuel ih =>
    intro m hm hmn
    unfold fallback
    by_cases hc : m ≠ 0 ∧ p[m]? ≠ some a
    · rw [if_pos hc]
      obtain ⟨hm0, hma⟩ := hc
      obtain ⟨hb1, hb2, hb3⟩ := hπ (m - 1) (by omega)
      rw [Nat.sub_add_cancel (by omega : 1 ≤ m)] at hb2 hb3
      obtain ⟨ih1, ih2, ih3, ih4⟩ := ih (π (m - 1)) (by omega) (by omega)
      refine ⟨ih1.trans hb2, by omega, ih3, ?_⟩
      intro k hk hks hka
      -- the whole of `p.take m` is ruled out, so `k` is a proper border and the table bounds it
      have hkm : k ≠ m := by rintro rfl; exact hma hka
      have hkb := hb3 k (by omega) hks
      exact ih4 k hkb (take_suffix_take hks hb2 hkb) hka
    · rw [if_neg hc]
      refine ⟨List.suffix_rfl, le_rfl, ?_, fun k hk _ _ => hk⟩
      by_cases hm0 : m = 0
      · exact Or.inl hm0
      · right
        by_contra hma
        exact hc ⟨hm0, hma⟩

/-- One turn of the automaton: fall back, then extend by `a` where the pattern allows it. -/
def advance (π : ℕ → ℕ) (p : List α) (m : ℕ) (a : α) : ℕ :=
  let r := fallback π p a m m
  if p[r]? = some a then r + 1 else r

/-- **The automaton keeps the longest suffix.** -/
theorem advance_isLongest {p s : List α} {n m : ℕ} {π : ℕ → ℕ} {a : α} (hπ : IsTable p n π)
    (h : IsLongest p s n m) (hn : n < p.length) :
    IsLongest p (s ++ [a]) (n + 1) (advance π p m a) := by
  obtain ⟨h1, h2, h3, h4⟩ := fallback_spec hπ a m m le_rfl h.1
  simp only [advance]
  by_cases hra : p[fallback π p a m m]? = some a
  · rw [if_pos hra]
    exact h.snoc hn h1 h2 hra h4
  · rw [if_neg hra]
    obtain h0 | h0 := h3
    · rw [h0] at hra h4 ⊢
      refine h.snoc_zero hn ?_
      intro k hk hks hka
      have hk0 : k = 0 := by have := h4 k hk hks hka; omega
      rw [hk0] at hka
      exact hra hka
    · exact absurd h0 hra

/-! ### Checked accesses -/

/-- The loop on a table, with every access checked: `none` where an index is out of range, or the fuel runs out. -/
def fallback? (table : List ℕ) (p : List α) (a : α) : ℕ → ℕ → Option ℕ
  | _, 0 => some 0
  | 0, _ + 1 => none
  | fuel + 1, m + 1 =>
    match p[m + 1]? with
    | none => none
    | some b =>
      if b = a then some (m + 1)
      else
        match table[m]? with
        | none => none
        | some shorter => fallback? table p a fuel shorter

/-- One turn of the automaton, with every access checked. -/
def advance? (table : List ℕ) (p : List α) (m : ℕ) (a : α) : Option ℕ :=
  match fallback? table p a m m with
  | none => none
  | some r =>
    match p[r]? with
    | none => none
    | some b => some (if b = a then r + 1 else r)

theorem fallback_le {p : List α} {n : ℕ} {π : ℕ → ℕ} (hπ : IsTable p n π) (a : α) {m : ℕ} (hm : m ≤ n) :
    fallback π p a m m ≤ m :=
  (fallback_spec hπ a m m le_rfl hm).2.1

/-- **The loop ends, and every index is in range.** -/
theorem fallback?_eq {table : List ℕ} {p : List α} {n : ℕ} (hπ : IsTable p n fun i => table.getD i 0)
    (hn : n ≤ table.length) (a : α) :
    ∀ (fuel m : ℕ), m ≤ fuel → m ≤ n → m < p.length →
      fallback? table p a fuel m = some (fallback (fun i => table.getD i 0) p a fuel m) := by
  intro fuel
  induction fuel with
  | zero =>
    intro m hm _ _
    obtain rfl : m = 0 := Nat.le_zero.1 hm
    rfl
  | succ fuel ih =>
    intro m hm hmn hmp
    cases m with
    | zero => rfl
    | succ m =>
      have hb : p[m + 1]? = some p[m + 1] := List.getElem?_eq_getElem hmp
      simp only [fallback?, fallback, hb]
      by_cases heq : p[m + 1] = a
      · rw [if_pos heq, if_neg fun h => h.2 (congrArg some heq)]
      · have hlt : m < table.length := by omega
        have hentry : table[m]? = some (table.getD m 0) := by
          rw [List.getD_eq_getElem?_getD, List.getElem?_eq_getElem hlt, Option.getD_some]
        have hborder : table.getD m 0 ≤ m := (hπ m (by omega)).1
        rw [if_neg heq, if_pos ⟨Nat.succ_ne_zero m, fun h => heq (Option.some.inj h)⟩, hentry,
          Nat.add_sub_cancel]
        exact ih (table.getD m 0) (by omega) (by omega) (by omega)

theorem advance?_eq {table : List ℕ} {p : List α} {n m : ℕ} (hπ : IsTable p n fun i => table.getD i 0)
    (hn : n ≤ table.length) (a : α) (hmn : m ≤ n) (hmp : m < p.length) :
    advance? table p m a = some (advance (fun i => table.getD i 0) p m a) := by
  have hlt : fallback (fun i => table.getD i 0) p a m m < p.length := (fallback_le hπ a hmn).trans_lt hmp
  have hb := List.getElem?_eq_getElem hlt
  simp only [advance?, advance, fallback?_eq hπ hn a m m le_rfl hmn hmp, hb, Option.some.injEq]

end Fallback

end NodeSerialport.Lib.Border
