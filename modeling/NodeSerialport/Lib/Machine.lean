import Mathlib.Data.List.Infix
import Mathlib.Tactic.Common
/-!
# Machines that read inputs and emit outputs

A machine answers an input with a new state and the outputs of the step, or does not take it at all.

* `Machine.run` — the run over a list of inputs, with the outputs of all its steps;
* `Machine.Along` — a condition on every step of a run, stated of the run before it;
* `Machine.run_rule` — the invariant rule, over inputs read, outputs emitted and the state;
* `Machine.run_refines` — the refinement rule: two machines that answer alike;
* `Machine.collect` — what the steps of a run show, each seen in the state before it;
* `Machine.monitor` — the machine beside an observer, who remembers what he saw and changes nothing.
-/

namespace NodeSerialport.Lib

/-- A step takes an input, or `none` where the input is not enabled. -/
structure Machine (σ ι ο : Type*) where
  step : σ → ι → Option (σ × List ο)

namespace Machine

variable {σ ι ο : Type*} (m : Machine σ ι ο)

/-- The run over a list of inputs. -/
def run (s : σ) : List ι → Option (σ × List ο)
  | [] => some (s, [])
  | i :: inputs =>
    match m.step s i with
    | none => none
    | some (s, outputs) =>
      match run s inputs with
      | none => none
      | some (s, rest) => some (s, outputs ++ rest)

/-- Every step of the run over the inputs meets `C`, which sees what was read and emitted before it. -/
def Along (C : List ι → List ο → σ → ι → Prop) (s : σ) (inputs : List ι) : Prop :=
  ∀ pre i post, inputs = pre ++ i :: post → ∀ s' outputs, m.run s pre = some (s', outputs) → C pre outputs s' i

variable {m}

theorem run_cons {s s₁ s₂ : σ} {i : ι} {inputs : List ι} {out rest : List ο} (h₁ : m.step s i = some (s₁, out))
    (h₂ : m.run s₁ inputs = some (s₂, rest)) : m.run s (i :: inputs) = some (s₂, out ++ rest) := by
  rw [run, h₁]
  show (match m.run s₁ inputs with | none => none | some (s, rest) => some (s, out ++ rest)) = _
  rw [h₂]

theorem run_cons_inv {s s₂ : σ} {i : ι} {inputs : List ι} {outputs : List ο}
    (h : m.run s (i :: inputs) = some (s₂, outputs)) :
    ∃ s₁ out rest, m.step s i = some (s₁, out) ∧ m.run s₁ inputs = some (s₂, rest) ∧ outputs = out ++ rest := by
  rw [run] at h
  split at h
  · cases h
  · rename_i s₁ out h₁
    split at h
    · cases h
    · rename_i s' rest h₂
      cases h
      exact ⟨s₁, out, rest, h₁, h₂, rfl⟩

theorem run_append_inv {s s₂ : σ} {pre post : List ι} {outputs : List ο}
    (h : m.run s (pre ++ post) = some (s₂, outputs)) :
    ∃ s₁ out rest, m.run s pre = some (s₁, out) ∧ m.run s₁ post = some (s₂, rest) ∧ outputs = out ++ rest := by
  induction pre generalizing s outputs with
  | nil => exact ⟨s, [], outputs, rfl, h, rfl⟩
  | cons i pre ih =>
    obtain ⟨s', out, rest, h₁, h₂, rfl⟩ := run_cons_inv h
    obtain ⟨s₁, out', rest', h₃, h₄, rfl⟩ := ih h₂
    exact ⟨s₁, out ++ out', rest', run_cons h₁ h₃, h₄, (List.append_assoc _ _ _).symm⟩

theorem run_append {s s₁ s₂ : σ} {pre post : List ι} {out rest : List ο} (h₁ : m.run s pre = some (s₁, out))
    (h₂ : m.run s₁ post = some (s₂, rest)) : m.run s (pre ++ post) = some (s₂, out ++ rest) := by
  induction pre generalizing s out with
  | nil =>
    cases h₁
    exact h₂
  | cons i pre ih =>
    obtain ⟨s', o, o', h₃, h₄, rfl⟩ := run_cons_inv h₁
    rw [List.append_assoc]
    exact run_cons h₃ (ih h₄)

theorem run_singleton {s s₁ : σ} {i : ι} {out : List ο} (h : m.step s i = some (s₁, out)) :
    m.run s [i] = some (s₁, out) := by
  have hnil : m.run s₁ [] = some (s₁, []) := rfl
  have hrun := run_cons h hnil
  rwa [List.append_nil] at hrun

theorem Along.last {C : List ι → List ο → σ → ι → Prop} {s s' : σ} {pre : List ι} {i : ι} {outputs : List ο}
    (h : m.Along C s (pre ++ [i])) (hrun : m.run s pre = some (s', outputs)) : C pre outputs s' i :=
  h pre i [] rfl s' outputs hrun

theorem Along.of_append {C : List ι → List ο → σ → ι → Prop} {s : σ} {pre post : List ι}
    (h : m.Along C s (pre ++ post)) : m.Along C s pre := by
  rintro p i q rfl s' outputs hrun
  exact h p i (q ++ post) (by simp) s' outputs hrun

theorem Along.step {C : List ι → List ο → σ → ι → Prop} {s s' : σ} {pre post : List ι} {i : ι} {outputs : List ο}
    (h : m.Along C s (pre ++ i :: post)) (hrun : m.run s pre = some (s', outputs)) : C pre outputs s' i :=
  h pre i post rfl s' outputs hrun

theorem Along.nil (C : List ι → List ο → σ → ι → Prop) (s : σ) : m.Along C s [] := by
  intro pre i post h
  cases pre <;> cases h

theorem Along.and {C C' : List ι → List ο → σ → ι → Prop} {s : σ} {inputs : List ι} (h : m.Along C s inputs)
    (h' : m.Along C' s inputs) : m.Along (fun pre out s i => C pre out s i ∧ C' pre out s i) s inputs :=
  fun pre i post heq s' outputs hrun => ⟨h pre i post heq s' outputs hrun, h' pre i post heq s' outputs hrun⟩

theorem Along.snoc {C : List ι → List ο → σ → ι → Prop} {s : σ} {pre : List ι} {i : ι} (h : m.Along C s pre)
    (hC : ∀ s' outputs, m.run s pre = some (s', outputs) → C pre outputs s' i) : m.Along C s (pre ++ [i]) := by
  intro p j q heq s' outputs hrun
  rcases List.eq_nil_or_concat q with rfl | ⟨q, k, rfl⟩
  · obtain ⟨rfl, hj⟩ := List.append_inj' heq rfl
    obtain rfl : i = j := by simpa using hj
    exact hC s' outputs hrun
  · rw [List.concat_eq_append, ← List.cons_append, ← List.append_assoc] at heq
    obtain ⟨rfl, -⟩ := List.append_inj' heq rfl
    exact h p j q rfl s' outputs hrun

/-- **The invariant rule.**  What holds before the first step, and is kept by every step that meets `C`, holds after
every run whose steps all meet `C`. -/
theorem run_rule {C : List ι → List ο → σ → ι → Prop} (P : List ι → List ο → σ → Prop) {s₀ : σ}
    (hstart : P [] [] s₀)
    (hstep : ∀ inputs outputs s i s' out, P inputs outputs s → C inputs outputs s i → m.step s i = some (s', out) →
      P (inputs ++ [i]) (outputs ++ out) s')
    {inputs : List ι} (hC : m.Along C s₀ inputs) {s : σ} {outputs : List ο} (hrun : m.run s₀ inputs = some (s, outputs)) :
    P inputs outputs s := by
  induction inputs using List.reverseRecOn generalizing s outputs with
  | nil =>
    cases hrun
    exact hstart
  | append_singleton pre i ih =>
    obtain ⟨s₁, out, rest, h₁, h₂, rfl⟩ := run_append_inv hrun
    obtain ⟨s₂, o, o', h₃, h₄, rfl⟩ := run_cons_inv h₂
    cases h₄
    rw [List.append_nil]
    exact hstep _ _ _ _ _ _ (ih hC.of_append h₁) (hC.step h₁) h₃

theorem run_rule_all (P : List ι → List ο → σ → Prop) {s₀ : σ} (hstart : P [] [] s₀)
    (hstep : ∀ inputs outputs s i s' out, P inputs outputs s → m.step s i = some (s', out) →
      P (inputs ++ [i]) (outputs ++ out) s')
    {inputs : List ι} {s : σ} {outputs : List ο} (hrun : m.run s₀ inputs = some (s, outputs)) : P inputs outputs s :=
  run_rule (C := fun _ _ _ _ => True) P hstart (fun _ _ _ _ _ _ h _ => hstep _ _ _ _ _ _ h)
    (fun _ _ _ _ _ _ _ => trivial) hrun

theorem run_invariant (P : σ → Prop) (hstep : ∀ s i s' out, P s → m.step s i = some (s', out) → P s') {s₀ : σ}
    (hstart : P s₀) {inputs : List ι} {s : σ} {outputs : List ο} (hrun : m.run s₀ inputs = some (s, outputs)) : P s :=
  run_rule_all (fun _ _ s => P s) hstart (fun _ _ _ _ _ _ h => hstep _ _ _ _ h) hrun

/-! ### Refinement -/

/-- **The refinement rule.**  Where two machines answer every input alike and stay related, they do so over every list of
inputs. -/
theorem run_refines {τ : Type*} {m' : Machine τ ι ο} (R : σ → τ → Prop)
    (hstep : ∀ s t i, R s t → ∃ s' t' out, m.step s i = some (s', out) ∧ m'.step t i = some (t', out) ∧ R s' t')
    {s : σ} {t : τ} (h : R s t) (inputs : List ι) :
    ∃ s' t' outputs, m.run s inputs = some (s', outputs) ∧ m'.run t inputs = some (t', outputs) ∧ R s' t' := by
  induction inputs generalizing s t with
  | nil => exact ⟨s, t, [], rfl, rfl, h⟩
  | cons i inputs ih =>
    obtain ⟨s₁, t₁, out, hs₁, ht₁, h₁⟩ := hstep s t i h
    obtain ⟨s', t', rest, hs', ht', h'⟩ := ih h₁
    exact ⟨s', t', out ++ rest, run_cons hs₁ hs', run_cons ht₁ ht', h'⟩

/-! ### What the steps of a run show -/

variable {β : Type*}

/-- What `f` shows of the steps of a run, in order. -/
def collect (m : Machine σ ι ο) (f : σ → ι → List β) (s : σ) : List ι → List β
  | [] => []
  | i :: inputs =>
    f s i ++ match m.step s i with
      | none => []
      | some (s, _) => collect m f s inputs

theorem collect_cons {f : σ → ι → List β} {s s' : σ} {i : ι} {out : List ο} (h : m.step s i = some (s', out))
    (inputs : List ι) : m.collect f s (i :: inputs) = f s i ++ m.collect f s' inputs := by
  rw [collect, h]

theorem collect_snoc {f : σ → ι → List β} {s s' : σ} {pre : List ι} {outputs : List ο}
    (h : m.run s pre = some (s', outputs)) (i : ι) : m.collect f s (pre ++ [i]) = m.collect f s pre ++ f s' i := by
  induction pre generalizing s outputs with
  | nil =>
    cases h
    have hone : m.collect f s' [i] = f s' i := by
      rw [collect]
      split
      · exact List.append_nil _
      · exact List.append_nil _
    rw [List.nil_append, hone]
    rfl
  | cons j pre ih =>
    obtain ⟨s₁, out, rest, h₁, h₂, -⟩ := run_cons_inv h
    rw [List.cons_append, collect_cons h₁, collect_cons h₁, ih h₂, List.append_assoc]

theorem collect_eq_nil {f : σ → ι → List β} {s s' : σ} {inputs : List ι} {outputs : List ο}
    (h : m.run s inputs = some (s', outputs)) :
    m.collect f s inputs = [] ↔ m.Along (fun _ _ s i => f s i = []) s inputs := by
  induction inputs using List.reverseRecOn generalizing s' outputs with
  | nil => exact ⟨fun _ => .nil _ s, fun _ => rfl⟩
  | append_singleton pre i ih =>
    obtain ⟨s₁, out, rest, h₁, -, -⟩ := run_append_inv h
    rw [collect_snoc h₁, List.append_eq_nil_iff, ih h₁]
    constructor
    · rintro ⟨hpre, hlast⟩
      refine hpre.snoc fun s₂ out' h₂ => ?_
      obtain ⟨rfl, -⟩ := Prod.mk.inj (Option.some.inj (h₁.symm.trans h₂))
      exact hlast
    · intro halong
      exact ⟨halong.of_append, halong.last h₁⟩

theorem collect_congr {f g : σ → ι → List β} {s s' : σ} {inputs : List ι} {outputs : List ο}
    (h : m.run s inputs = some (s', outputs)) (hfg : m.Along (fun _ _ s i => f s i = g s i) s inputs) :
    m.collect f s inputs = m.collect g s inputs := by
  induction inputs using List.reverseRecOn generalizing s' outputs with
  | nil => rfl
  | append_singleton pre i ih =>
    obtain ⟨s₁, out, rest, h₁, -, -⟩ := run_append_inv h
    rw [collect_snoc h₁, collect_snoc h₁, ih h₁ hfg.of_append, hfg.last h₁]

/-! ### Observers -/

variable {δ : Type*}

/-- The machine beside an observer, who sees each step: the state before it, the input and the outputs. -/
def monitor (m : Machine σ ι ο) (next : δ → σ → ι → List ο → δ) : Machine (σ × δ) ι ο :=
  ⟨fun x i => (m.step x.1 i).map fun y => ((y.1, next x.2 x.1 i y.2), y.2)⟩

variable {next : δ → σ → ι → List ο → δ}

theorem monitor_step {x x' : σ × δ} {i : ι} {out : List ο} :
    (m.monitor next).step x i = some (x', out) ↔ m.step x.1 i = some (x'.1, out) ∧ x'.2 = next x.2 x.1 i out := by
  obtain ⟨s', d'⟩ := x'
  constructor
  · intro h
    obtain ⟨⟨s₁, out₁⟩, hstep, heq⟩ := Option.map_eq_some_iff.1 (show (m.step x.1 i).map _ = _ from h)
    cases heq
    exact ⟨hstep, rfl⟩
  · rintro ⟨hstep, hd⟩
    show (m.step x.1 i).map _ = _
    rw [hstep, show d' = next x.2 x.1 i out from hd]
    rfl

theorem run_of_monitor {x x' : σ × δ} {inputs : List ι} {outputs : List ο}
    (h : (m.monitor next).run x inputs = some (x', outputs)) : m.run x.1 inputs = some (x'.1, outputs) := by
  induction inputs generalizing x outputs with
  | nil =>
    cases h
    rfl
  | cons i inputs ih =>
    obtain ⟨x₁, out, rest, hstep, hrun, rfl⟩ := run_cons_inv h
    exact run_cons (monitor_step.1 hstep).1 (ih hrun)

/-- A condition on the steps of a run is one on those of the observed run. -/
theorem Along.monitor {C : List ι → List ο → σ → ι → Prop} {s : σ} {inputs : List ι} (h : m.Along C s inputs) (d : δ) :
    (m.monitor next).Along (fun pre out x i => C pre out x.1 i) (s, d) inputs :=
  fun pre i post heq _ outputs hrun => h pre i post heq _ outputs (run_of_monitor hrun)

end Machine

end NodeSerialport.Lib
