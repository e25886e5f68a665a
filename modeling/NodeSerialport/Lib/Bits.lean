import Mathlib.Data.List.Nodup
import Mathlib.Tactic.Common
/-!
# Flags of a word

* `putBit` — one bit of a word is set to a value, the others stay;
* `putBits` — so are several, one after the other;
* `getLsbD_putBits` — each bit is as it was put last, or as it was.
-/

namespace NodeSerialport.Lib

variable {w : ℕ}

/-- One bit is set to a value. -/
def putBit (word : BitVec w) (bit : ℕ) (value : Bool) : BitVec w :=
  (word &&& ~~~(1#w <<< bit)) ||| ((BitVec.ofBool value).setWidth w <<< bit)

theorem getLsbD_putBit (word : BitVec w) {bit : ℕ} (value : Bool) (hbit : bit < w) (i : ℕ) :
    (putBit word bit value).getLsbD i = if i = bit then value else word.getLsbD i := by
  unfold putBit
  simp only [BitVec.getLsbD_or, BitVec.getLsbD_and, BitVec.getLsbD_not, BitVec.getLsbD_shiftLeft, BitVec.getLsbD_one,
    BitVec.getLsbD_setWidth, BitVec.getLsbD_ofBool]
  by_cases hsame : i = bit
  · subst hsame
    have hpos : 0 < w := Nat.zero_lt_of_lt hbit
    simp [hbit, hpos]
  · rw [if_neg hsame]
    by_cases hi : i < w
    · rcases Nat.lt_or_gt_of_ne hsame with hlt | hgt
      · simp [hi, hlt]
      · have hpos : i - bit ≠ 0 := by omega
        simp [hi, hpos]
    · rw [BitVec.getLsbD_of_ge word i (Nat.not_lt.1 hi)]
      simp [hi]

/-- Bits are set to values, one after the other. -/
def putBits (word : BitVec w) (bits : List (ℕ × Bool)) : BitVec w :=
  bits.foldl (fun word bit => putBit word bit.1 bit.2) word

/-- **Each bit is as it was put**, or as it was. -/
theorem getLsbD_putBits (bits : List (ℕ × Bool)) (word : BitVec w) (hbits : ∀ bit ∈ bits, bit.1 < w)
    (hnodup : (bits.map Prod.fst).Nodup) (i : ℕ) :
    (putBits word bits).getLsbD i = (bits.lookup i).getD (word.getLsbD i) := by
  induction bits generalizing word with
  | nil => rfl
  | cons bit bits ih =>
    obtain ⟨hnew, hnodup⟩ := List.nodup_cons.1 hnodup
    have hrest := ih (putBit word bit.1 bit.2) (fun b hb => hbits b (List.mem_cons_of_mem _ hb)) hnodup
    rw [putBits, List.foldl_cons]
    refine hrest.trans ?_
    rw [getLsbD_putBit word bit.2 (hbits bit List.mem_cons_self)]
    obtain ⟨position, value⟩ := bit
    by_cases hsame : i = position
    · subst hsame
      have hnone : bits.lookup i = none := by
        rw [List.lookup_eq_none_iff]
        intro other hmem
        simpa using fun heq : i = other.1 => hnew (List.mem_map.2 ⟨other, hmem, heq.symm⟩)
      rw [hnone, List.lookup_cons_self]
      simp
    · rw [if_neg hsame, List.lookup_cons, show (i == position) = false from beq_false_of_ne hsame]

end NodeSerialport.Lib
