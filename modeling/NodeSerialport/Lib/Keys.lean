import Mathlib.Data.List.Basic
import Mathlib.Data.List.Pairwise
import Mathlib.Order.Lattice
import Mathlib.Tactic.Common
/-!
# Lists in the order of a key

Where the keys of a list only grow, what belongs to one key comes before what belongs to a larger one.

* `gathered` — what the elements with one key yield;
* `gathered_sublist` — gathering key after key keeps the order of the list.
-/

namespace NodeSerialport.Lib

variable {α β κ : Type*} [LinearOrder κ]

/-- What the elements with one key yield. -/
def gathered (key : α → Option κ) (f : α → List β) (l : List α) (k : κ) : List β :=
  l.flatMap fun a => if key a = some k then f a else []

variable {key : α → Option κ} {f : α → List β}

theorem gathered_append (l l' : List α) (k : κ) :
    gathered key f (l ++ l') k = gathered key f l k ++ gathered key f l' k := List.flatMap_append

theorem gathered_cons (a : α) (l : List α) (k : κ) :
    gathered key f (a :: l) k = (if key a = some k then f a else []) ++ gathered key f l k := List.flatMap_cons

theorem gathered_prefix {l l' : List α} (h : l <+: l') (k : κ) : gathered key f l k <+: gathered key f l' k := by
  obtain ⟨rest, rfl⟩ := h
  rw [gathered_append]
  exact List.prefix_append _ _

theorem gathered_nil {l : List α} {k : κ} (h : k ∉ l.filterMap key) : gathered key f l k = [] := by
  rw [gathered, List.flatMap_eq_nil_iff]
  exact fun a hmem => if_neg fun heq => h (List.mem_filterMap.2 ⟨a, hmem, heq⟩)

theorem gathered_skip {a : α} {l : List α} {ks : List κ} (h : ∀ k ∈ ks, key a ≠ some k) :
    ks.flatMap (gathered key f (a :: l)) = ks.flatMap (gathered key f l) := by
  refine List.flatMap_congr fun k hk => ?_
  rw [gathered_cons, if_neg (h k hk), List.nil_append]

/-- **Gathering key after key keeps the order** of a list whose keys do not fall. -/
theorem gathered_sublist {l : List α} (hl : (l.filterMap key).Pairwise (· ≤ ·)) {ks : List κ} (hks : ks.Pairwise (· < ·)) :
    (ks.flatMap (gathered key f l)).Sublist (l.flatMap f) := by
  induction l generalizing ks with
  | nil =>
    have hnil : ks.flatMap (gathered key f []) = [] := List.flatMap_eq_nil_iff.2 fun _ _ => rfl
    rw [hnil]
    exact List.nil_sublist _
  | cons a l ih =>
    have htail : (l.filterMap key).Pairwise (· ≤ ·) := hl.sublist ((List.sublist_cons_self a l).filterMap key)
    rw [List.flatMap_cons]
    by_cases hmem : ∃ k ∈ ks, key a = some k
    · obtain ⟨k, hk, ha⟩ := hmem
      obtain ⟨before, after, rfl⟩ := List.append_of_mem hk
      obtain ⟨-, hafter, hbefore⟩ := List.pairwise_append.1 hks
      rw [List.filterMap_cons_some ha] at hl
      -- the keys before this one have nothing left
      have hnone : before.flatMap (gathered key f (a :: l)) = [] := by
        rw [List.flatMap_eq_nil_iff]
        intro k' hk'
        have hlt := hbefore k' hk' k List.mem_cons_self
        refine gathered_nil fun hin => ?_
        rw [List.filterMap_cons_some ha] at hin
        rcases List.mem_cons.1 hin with rfl | hin
        · exact lt_irrefl _ hlt
        · exact absurd (List.rel_of_pairwise_cons hl hin) (not_le_of_gt hlt)
      have hothers : ∀ k' ∈ after, key a ≠ some k' := by
        intro k' hk' heq
        have hlt := List.rel_of_pairwise_cons hafter hk'
        rw [Option.some.inj (ha.symm.trans heq)] at hlt
        exact lt_irrefl _ hlt
      rw [List.flatMap_append, hnone, List.nil_append, List.flatMap_cons, gathered_cons, if_pos ha, List.append_assoc,
        gathered_skip hothers, ← List.flatMap_cons]
      exact (ih htail hafter).append_left _
    · rw [gathered_skip fun k hk heq => hmem ⟨k, hk, heq⟩]
      exact (ih htail hks).trans (List.sublist_append_right _ _)

end NodeSerialport.Lib
