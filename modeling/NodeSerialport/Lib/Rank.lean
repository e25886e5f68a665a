import NodeSerialport.Lib.Machine
/-!
# Ranks

A rank bounds what a machine can still do: each step pays for what it shows, and no step makes the rank grow.

* `Machine.run_rank` — what a run shows, and the rank that is left, do not exceed the rank it began with.
-/

namespace NodeSerialport.Lib

namespace Machine

variable {σ ι ο β : Type*} {m : Machine σ ι ο} (rank : σ → ℕ) (f : σ → ι → List β) (P : σ → Prop)

/-- **The rank rule.** -/
theorem run_rank (hstep : ∀ s i s' out, P s → m.step s i = some (s', out) → P s' ∧ (f s i).length + rank s' ≤ rank s)
    {s s' : σ} (hs : P s) {inputs : List ι} {outputs : List ο} (hrun : m.run s inputs = some (s', outputs)) :
    P s' ∧ (m.collect f s inputs).length + rank s' ≤ rank s := by
  induction inputs generalizing s outputs with
  | nil =>
    cases hrun
    exact ⟨hs, Nat.le_of_eq (Nat.zero_add _)⟩
  | cons i inputs ih =>
    obtain ⟨s₁, out, rest, h₁, hrest, rfl⟩ := run_cons_inv hrun
    obtain ⟨hs₁, hpaid⟩ := hstep s i s₁ out hs h₁
    obtain ⟨hs', hleft⟩ := ih hs₁ hrest
    refine ⟨hs', ?_⟩
    rw [collect_cons h₁, List.length_append]
    omega

end Machine

end NodeSerialport.Lib
