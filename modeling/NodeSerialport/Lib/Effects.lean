import Mathlib.Tactic.Common
/-!
# Calls that may fail

A computation over a state that ends in a value or in an error, and leaves a state in both cases.

* `bind_eq_ok`, `bind_eq_error` — what a sequence that ended well, or badly, went through;
* `guarded` — what was taken is given back where the rest fails;
* `Does`, `Keeps` — what a computation does to something of the state, where it does not fail;
* `check`, `checks` — the first of several checks that fails decides.
-/

namespace NodeSerialport.Lib

variable {ε σ α β γ : Type}

/-! ### Sequences -/

section Sequences

variable {x : EStateM ε σ α} {f : α → EStateM ε σ β} {s s' : σ}

theorem bind_eq_ok {b : β} :
    (x >>= f) s = .ok b s' ↔ ∃ a s₁, x s = .ok a s₁ ∧ f a s₁ = .ok b s' := by
  show EStateM.bind x f s = _ ↔ _
  unfold EStateM.bind
  cases hx : x s with
  | ok a s₁ => simp
  | error e s₁ => simp

theorem bind_eq_error {e : ε} :
    (x >>= f) s = .error e s' ↔ x s = .error e s' ∨ ∃ a s₁, x s = .ok a s₁ ∧ f a s₁ = .error e s' := by
  show EStateM.bind x f s = _ ↔ _
  unfold EStateM.bind
  cases hx : x s with
  | ok a s₁ => simp
  | error e s₁ => simp

theorem pure_eq_ok {a b : α} : (pure a : EStateM ε σ α) s = .ok b s' ↔ a = b ∧ s = s' := by
  show EStateM.Result.ok a s = _ ↔ _
  simp

/-- The result of a computation without effects. -/
def lift (result : Except ε α) : EStateM ε σ α :=
  match result with
  | .ok a => pure a
  | .error e => throw e

theorem lift_eq_ok {result : Except ε α} {a : α} :
    (lift result : EStateM ε σ α) s = .ok a s' ↔ result = .ok a ∧ s = s' := by
  cases result with
  | ok b =>
    rw [show lift (.ok b) = (pure b : EStateM ε σ α) from rfl, pure_eq_ok, Except.ok.injEq]
  | error e =>
    constructor
    · intro h
      cases h
    · rintro ⟨h, -⟩
      cases h

theorem lift_eq_error {result : Except ε α} {e : ε} :
    (lift result : EStateM ε σ α) s = .error e s' ↔ result = .error e ∧ s = s' := by
  cases result with
  | ok b =>
    constructor
    · intro h
      cases h
    · rintro ⟨h, -⟩
      cases h
  | error e' =>
    show EStateM.Result.error e' s = .error e s' ↔ _
    rw [EStateM.Result.error.injEq, Except.error.injEq]

/-- What was taken is given back where the rest fails. -/
def guarded (release : σ → σ) (x : EStateM ε σ α) : EStateM ε σ α := fun s =>
  match x s with
  | .ok a s' => .ok a s'
  | .error e s' => .error e (release s')

theorem guarded_eq_ok {release : σ → σ} {a : α} : guarded release x s = .ok a s' ↔ x s = .ok a s' := by
  unfold guarded
  cases x s <;> simp

theorem guarded_eq_error {release : σ → σ} {e : ε} :
    guarded release x s = .error e s' ↔ ∃ s₁, x s = .error e s₁ ∧ release s₁ = s' := by
  unfold guarded
  cases x s <;> simp

end Sequences

/-! ### What is kept -/

/-- What a computation does to something of the state; where it fails, it leaves that as it was. -/
def Does (view : σ → γ) (x : EStateM ε σ α) (spec : γ → α → γ → Prop) : Prop := ∀ s,
  (∀ a s', x s = .ok a s' → spec (view s) a (view s')) ∧ ∀ e s', x s = .error e s' → view s' = view s

/-- A computation leaves something of the state as it was. -/
def Keeps (view : σ → γ) (x : EStateM ε σ α) : Prop := Does view x fun v _ v' => v' = v

namespace Does

variable {view : σ → γ} {x : EStateM ε σ α} {f : α → EStateM ε σ β} {spec spec' : γ → α → γ → Prop}

theorem mono (h : Does view x spec) (himp : ∀ v a v', spec v a v' → spec' v a v') : Does view x spec' :=
  fun s => ⟨fun a s' hx => himp _ _ _ ((h s).1 a s' hx), (h s).2⟩

theorem shown {δ : Type} (f : γ → δ) {goal : δ → α → δ → Prop} (h : Does view x spec)
    (himp : ∀ v a v', spec v a v' → goal (f v) a (f v')) : Does (fun s => f (view s)) x goal :=
  fun s => ⟨fun a s' hx => himp _ _ _ ((h s).1 a s' hx), fun e s' hx => congrArg f ((h s).2 e s' hx)⟩

theorem always {a : σ → α} {f : σ → σ} (h : ∀ s, spec (view s) (a s) (view (f s))) :
    Does view (fun s => EStateM.Result.ok (a s) (f s) : EStateM ε σ α) spec := by
  intro s
  refine ⟨fun b s' hs => ?_, fun e s' hs => ?_⟩
  · cases hs
    exact h s
  · cases hs

theorem never {e : ε} : Does view (fun s => EStateM.Result.error e s : EStateM ε σ α) spec := by
  intro s
  refine ⟨fun a s' hs => ?_, fun e' s' hs => ?_⟩
  · cases hs
  · cases hs
    rfl

theorem after {P : γ → α → Prop} {goal : γ → β → γ → Prop} (hx : Does view x fun v a v' => v' = v ∧ P v a)
    (hf : ∀ a, Does view (f a) fun v b v' => P v a → goal v b v') : Does view (x >>= f) goal := by
  intro s
  constructor
  · intro b s' h
    obtain ⟨a, s₁, h₁, h₂⟩ := bind_eq_ok.1 h
    obtain ⟨hsame, hP⟩ := (hx s).1 a s₁ h₁
    have hgoal := (hf a s₁).1 b s' h₂
    rw [hsame] at hgoal
    exact hgoal hP
  · intro e s' h
    rcases bind_eq_error.1 h with h₁ | ⟨a, s₁, h₁, h₂⟩
    · exact (hx s).2 e s' h₁
    · exact ((hf a s₁).2 e s' h₂).trans ((hx s).1 a s₁ h₁).1

theorem lift (result : Except ε α) : Does view (Lib.lift result) fun v a v' => v' = v ∧ result = .ok a := by
  intro s
  cases result with
  | ok b =>
    refine ⟨fun a s' h => ?_, fun e s' h => ?_⟩
    · obtain ⟨rfl, rfl⟩ := pure_eq_ok.1 h
      exact ⟨rfl, rfl⟩
    · cases h
  | error e' =>
    refine ⟨fun a s' h => ?_, fun e s' h => ?_⟩
    · cases h
    · cases h
      rfl

end Does

/-! ### Checks -/

/-- A check, and what is said where it fails. -/
def check (valid : Bool) (error : ε) : Except ε Unit := if valid then .ok () else .error error

/-- Checks, one after the other. -/
def checks (l : List (Bool × ε)) : Except ε Unit := l.forM fun c => check c.1 c.2

theorem checks_cons (c : Bool × ε) (l : List (Bool × ε)) :
    checks (c :: l) = if c.1 then checks l else .error c.2 := by
  show (do check c.1 c.2; checks l) = _
  unfold check
  cases c.1 <;> rfl

theorem checks_bind (c : Bool × ε) (l : List (Bool × ε)) (k : Except ε α) :
    (do checks (c :: l); k) = (do check c.1 c.2; checks l; k) := by
  rw [checks_cons]
  unfold check
  cases c.1 <;> rfl

theorem checks_eq_ok {l : List (Bool × ε)} : checks l = .ok () ↔ ∀ c ∈ l, c.1 = true := by
  induction l with
  | nil => exact ⟨fun _ _ hmem => absurd hmem List.not_mem_nil, fun _ => rfl⟩
  | cons c l ih =>
    rw [checks_cons, List.forall_mem_cons]
    cases c.1 with
    | true => simpa using ih
    | false => simp

/-- **The first check that fails decides.** -/
theorem checks_eq_error {l : List (Bool × ε)} {e : ε} :
    checks l = .error e ↔ ∃ before after, l = before ++ (false, e) :: after ∧ ∀ c ∈ before, c.1 = true := by
  induction l with
  | nil =>
    constructor
    · intro h
      cases h
    · rintro ⟨before, after, h, -⟩
      exact absurd h.symm (List.append_ne_nil_of_right_ne_nil _ (List.cons_ne_nil _ _))
  | cons c l ih =>
    rw [checks_cons]
    obtain ⟨valid, error⟩ := c
    cases valid with
    | true =>
      rw [if_pos rfl, ih]
      constructor
      · rintro ⟨before, after, rfl, hbefore⟩
        exact ⟨(true, error) :: before, after, rfl, List.forall_mem_cons.2 ⟨rfl, hbefore⟩⟩
      · rintro ⟨before, after, heq, hbefore⟩
        cases before with
        | nil => cases heq
        | cons c before =>
          obtain ⟨rfl, rfl⟩ := List.cons.inj heq
          exact ⟨before, after, rfl, (List.forall_mem_cons.1 hbefore).2⟩
    | false =>
      rw [if_neg Bool.false_ne_true]
      constructor
      · intro h
        cases h
        exact ⟨[], l, rfl, fun _ hmem => absurd hmem List.not_mem_nil⟩
      · rintro ⟨before, after, heq, hbefore⟩
        cases before with
        | nil =>
          cases heq
          rfl
        | cons c before =>
          obtain ⟨rfl, -⟩ := List.cons.inj heq
          cases hbefore _ List.mem_cons_self

end NodeSerialport.Lib
