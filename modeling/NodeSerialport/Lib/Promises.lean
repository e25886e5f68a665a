import Mathlib.Data.List.Nodup
import Mathlib.Logic.Function.Basic
import Mathlib.Tactic.Common
/-!
# Promises and who holds them

Promises are numbered as they are made.  Each party holds one that is outstanding, or none; a promise that is settled is
held by nobody.

* `Held` — no promise is held by two parties, and none is settled twice;
* `Held.refuse`, `hold`, `settle` — the rules for a promise that is settled at once, kept, and settled later.
-/

namespace NodeSerialport.Lib

variable {κ : Type*}

/-- **Who holds which promise**, of those that were made, and those that are settled. -/
structure Held (held : κ → Option ℕ) (made : ℕ) (settled : List ℕ) : Prop where
  outstanding : ∀ k r, held k = some r → r < made ∧ r ∉ settled
  apart : ∀ k l r, held k = some r → held l = some r → k = l
  made : ∀ r ∈ settled, r < made
  nodup : settled.Nodup

namespace Held

variable {held held' : κ → Option ℕ} {made : ℕ} {settled : List ℕ} {k : κ} {r : ℕ}

theorem nil : Held (fun _ : κ => none) 0 [] :=
  ⟨fun _ _ h => (Option.some_ne_none _ h.symm).elim, fun _ _ _ h => (Option.some_ne_none _ h.symm).elim,
    fun _ h => (List.not_mem_nil h).elim, List.nodup_nil⟩

/-- A promise that is made and settled at once. -/
theorem refuse (h : Held held made settled) : Held held (made + 1) (settled ++ [made]) := by
  have hnew : made ∉ settled := fun hmem => Nat.lt_irrefl _ (h.made made hmem)
  refine ⟨fun k r hk => ?_, h.apart, fun r hr => ?_, ?_⟩
  · obtain ⟨hlt, hmem⟩ := h.outstanding k r hk
    refine ⟨Nat.lt_succ_of_lt hlt, fun hr => ?_⟩
    rcases List.mem_append.1 hr with hr | hr
    · exact hmem hr
    · exact Nat.ne_of_lt hlt (List.mem_singleton.1 hr)
  · rcases List.mem_append.1 hr with hr | hr
    · exact Nat.lt_succ_of_lt (h.made r hr)
    · exact List.mem_singleton.1 hr ▸ Nat.lt_succ_self made
  · rw [List.nodup_append]
    refine ⟨h.nodup, List.nodup_singleton _, fun a ha b hb => ?_⟩
    rintro rfl
    exact hnew (List.mem_singleton.1 hb ▸ ha)

variable [DecidableEq κ]

/-- A promise that is made and kept. -/
theorem hold (h : Held held made settled) (hkept : ∀ l, held' l = if l = k then some made else held l) :
    Held held' (made + 1) settled := by
  have hof {l : κ} {r : ℕ} (hl : held' l = some r) : (l = k ∧ r = made) ∨ held l = some r := by
    rw [hkept] at hl
    split at hl
    · exact .inl ⟨‹_›, (Option.some.inj hl).symm⟩
    · exact .inr hl
  refine ⟨fun l r hl => ?_, fun l l' r hl hl' => ?_, fun r hr => Nat.lt_succ_of_lt (h.made r hr), h.nodup⟩
  · rcases hof hl with ⟨-, rfl⟩ | hl
    · exact ⟨Nat.lt_succ_self _, fun hmem => Nat.lt_irrefl _ (h.made _ hmem)⟩
    · exact ⟨Nat.lt_succ_of_lt (h.outstanding l r hl).1, (h.outstanding l r hl).2⟩
  · rcases hof hl with ⟨rfl, rfl⟩ | hl
    · rcases hof hl' with ⟨rfl, -⟩ | hl'
      · rfl
      · exact absurd (h.outstanding l' _ hl').1 (Nat.lt_irrefl _)
    · rcases hof hl' with ⟨-, rfl⟩ | hl'
      · exact absurd (h.outstanding l _ hl).1 (Nat.lt_irrefl _)
      · exact h.apart l l' r hl hl'

/-- **A promise is settled**, and its holder lets go of it. -/
theorem settle (h : Held held made settled) (hk : held k = some r) (hfree : ∀ l, held' l = if l = k then none else held l) :
    Held held' made (settled ++ [r]) := by
  obtain ⟨hlt, hnew⟩ := h.outstanding k r hk
  have hof {l : κ} {r' : ℕ} (hl : held' l = some r') : l ≠ k ∧ held l = some r' := by
    rw [hfree] at hl
    split at hl
    · cases hl
    · exact ⟨‹_›, hl⟩
  refine ⟨fun l r' hl => ?_, fun l l' r' hl hl' => h.apart l l' r' (hof hl).2 (hof hl').2, fun r' hr => ?_, ?_⟩
  · obtain ⟨hne, hl⟩ := hof hl
    refine ⟨(h.outstanding l r' hl).1, fun hr => ?_⟩
    rcases List.mem_append.1 hr with hr | hr
    · exact (h.outstanding l r' hl).2 hr
    · obtain rfl := List.mem_singleton.1 hr
      exact hne (h.apart l k r' hl hk)
  · rcases List.mem_append.1 hr with hr | hr
    · exact h.made r' hr
    · exact List.mem_singleton.1 hr ▸ hlt
  · rw [List.nodup_append]
    refine ⟨h.nodup, List.nodup_singleton _, fun a ha b hb => ?_⟩
    rintro rfl
    exact hnew (List.mem_singleton.1 hb ▸ ha)

end Held

end NodeSerialport.Lib
