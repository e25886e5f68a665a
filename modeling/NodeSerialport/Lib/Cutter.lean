import Mathlib.Data.List.Basic
import Mathlib.Order.Nat
import Mathlib.Tactic.Common

/-!
# Cutting an input from its front

A `Cutter` looks at the front of an input and says, once enough of it has arrived, how many symbols to consume and
what they give.

* `Cutter.cut C x` — what the input `x` gives, and the rest that is not enough for a further decision;
* `cut_append` — an input that arrives in two parts: the second part is cut behind the rest of the first;
* `cut_flatten` — a concatenation of words each of which is consumed whole.
-/

namespace NodeSerialport.Lib

/-- A decision about the front of an input: consume so many symbols, which give something or nothing. -/
structure Cutter (α β : Type*) where
  next : List α → Option (ℕ × Option β)
  /-- Something is consumed, and only what has arrived. -/
  pos : ∀ {x n o}, next x = some (n, o) → 0 < n ∧ n ≤ x.length
  /-- Later input does not change a decision. -/
  stable : ∀ {x r} (z : List α), next x = some r → next (x ++ z) = some r

namespace Cutter

variable {α β : Type*} (C : Cutter α β)

/-- What an input gives, and the rest of it. -/
def cut (x : List α) : List β × List α :=
  match _h : C.next x with
  | none => ([], x)
  | some (n, o) =>
    let rest := cut (x.drop n)
    (o.toList ++ rest.1, rest.2)
termination_by x.length
decreasing_by
  have := C.pos _h
  rw [List.length_drop]
  omega

variable {C}

theorem cut_of_none {x : List α} (h : C.next x = none) : C.cut x = ([], x) := by
  rw [cut]
  split
  · rfl
  · rename_i h'
    rw [h] at h'
    cases h'

theorem cut_of_some {x : List α} {n : ℕ} {o : Option β} (h : C.next x = some (n, o)) :
    C.cut x = (o.toList ++ (C.cut (x.drop n)).1, (C.cut (x.drop n)).2) := by
  rw [cut]
  split
  · rename_i h'
    rw [h] at h'
    cases h'
  · rename_i n' o' h'
    rw [h] at h'
    obtain ⟨rfl, rfl⟩ : n = n' ∧ o = o' := by simpa using h'
    rfl

theorem next_rest (x : List α) : C.next (C.cut x).2 = none := by
  induction hn : x.length using Nat.strong_induction_on generalizing x with
  | _ n ih =>
    cases h : C.next x with
    | none => rwa [cut_of_none h]
    | some r =>
      obtain ⟨m, o⟩ := r
      have hpos := C.pos h
      rw [cut_of_some h]
      exact ih (x.drop m).length (by rw [List.length_drop]; omega) _ rfl

/-- **An input in two parts.**  What the first part gives, then what the second part gives behind its rest. -/
theorem cut_append (x z : List α) :
    C.cut (x ++ z) = ((C.cut x).1 ++ (C.cut ((C.cut x).2 ++ z)).1, (C.cut ((C.cut x).2 ++ z)).2) := by
  induction hn : x.length using Nat.strong_induction_on generalizing x with
  | _ n ih =>
    cases h : C.next x with
    | none =>
      rw [cut_of_none h]
      simp
    | some r =>
      obtain ⟨m, o⟩ := r
      have hpos := C.pos h
      have hrec := ih (x.drop m).length (by rw [List.length_drop]; omega) (x.drop m) rfl
      rw [cut_of_some (C.stable z h), cut_of_some h, List.drop_append_of_le_length hpos.2, hrec]
      simp only [List.append_assoc]

/-- **A concatenation of words** each of which is consumed whole gives what its words give. -/
theorem cut_flatten {words : List (List α)} {f : List α → β}
    (h : ∀ w ∈ words, C.next w = some (w.length, some (f w))) (hnil : C.next [] = none) :
    C.cut words.flatten = (words.map f, []) := by
  induction words with
  | nil => exact cut_of_none hnil
  | cons w words ih =>
    have hw := C.stable words.flatten (h w (by simp))
    have hrest := ih fun v hv => h v (List.mem_cons_of_mem _ hv)
    rw [List.flatten_cons, cut_of_some hw, List.drop_left, hrest]
    rfl

end Cutter

end NodeSerialport.Lib
