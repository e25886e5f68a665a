import NodeSerialport.Binding.Requests
/-!
# `startReading` keeps credit outstanding

Bytes and slots are used up at unrelated rates; `startReading` tops both up when one of them runs low.

* `lengths` — the lengths `startReading` was called with;
* `Balanced` — what is left of a window: as many bytes as slots are gone from it, or more;
* `Replenished` — the invariant;
* `Client.Reads` — `startReading` returns normally;
* `Replenished.reads` — there is credit of both kinds then.
-/

namespace NodeSerialport.Binding

open Parsers (Buffer)

/-! ### Lengths -/

def Input.length? : Input → Option ℤ
  | .invoke (.startReading length) => some length
  | _ => none

/-- The lengths `startReading` was called with. -/
def lengths (inputs : List Input) : List ℤ := inputs.filterMap Input.length?

theorem lengths_append (a b : List Input) : lengths (a ++ b) = lengths a ++ lengths b := List.filterMap_append

theorem mem_lengths_snoc {inputs : List Input} {length : ℤ} (h : length ∈ lengths inputs) (i : Input) :
    length ∈ lengths (inputs ++ [i]) := by
  rw [lengths_append]
  exact List.mem_append_left _ h

theorem asked_window {i : Input} {length : ℤ} (h : i.asked = .window length) : i = .invoke (.startReading length) := by
  cases i with
  | invoke m =>
    cases m with
    | startReading length' =>
      cases h
      rfl
    | _ => cases h
  | _ => cases h

/-! ### The balance of a window -/

/-- **What is left of a window**: at least as many bytes as slots are gone, and as long as no slot is gone, no byte is. -/
structure Balanced (window : ℤ) (p : BindingPort) : Prop where
  slots : p.readSlots ≤ 32
  bytes : 32 - p.readSlots ≤ window - p.readBytes
  full : p.readSlots = 32 → p.readBytes = window

namespace Balanced

variable {window : ℤ} {p p' : BindingPort}

theorem start (hbytes : p.readBytes = window) (hslots : p.readSlots = 32) : Balanced window p :=
  ⟨hslots.le, by omega, fun _ => hbytes⟩

/-- **A buffer that is passed on** costs one slot and at least one byte. -/
theorem passed (h : Balanced window p) {data : Buffer} (hdata : data ≠ [])
    (hbytes : p'.readBytes = p.readBytes - data.length) (hslots : p'.readSlots = p.readSlots - 1) : Balanced window p' := by
  have hpos := List.length_pos_iff.2 hdata
  obtain ⟨h1, h2, h3⟩ := h
  refine ⟨by omega, by omega, fun hfull => ?_⟩
  omega

/-- **Where nothing is topped up, both are left**, as the window asked for is no smaller. -/
theorem enough (h : Balanced window p) {length : ℤ} (hpos : 1 ≤ window) (hle : window ≤ BindingPort.window length)
    (hnone : p.credit length = none) : 1 ≤ p.readBytes ∧ 1 ≤ p.readSlots := by
  obtain ⟨hslots, hbytes, hfull⟩ := h
  rcases BindingPort.credit_none hnone with ⟨hb, hs⟩ | hb | hs
  · omega
  · -- all bytes of a window are left, so all slots are
    omega
  · have := hfull (by omega)
    omega

end Balanced

/-! ### The invariant -/

/-- **The credit since the last top-up.** -/
structure Replenished (inputs : List Input) (c : Client) : Prop where
  wf : c.QueueWF
  scheduled : c.microtasks = c.items.length
  held : ∀ data ∈ c.held, data ≠ []
  balance : (c.port.readBytes ≤ 0 ∧ c.port.readSlots ≤ 0) ∨
    ∃ length ∈ lengths inputs, Balanced (BindingPort.window length) c.port
  granting : ∀ call bytes slots, c.calling = some (call, .credit bytes slots) →
    ∃ length ∈ lengths inputs, c.port.readBytes + bytes = BindingPort.window length ∧ c.port.readSlots + slots = 32

namespace Replenished

variable {inputs : List Input} {c c' : Client} {i : Input} {out : List Output}

theorem start (path : String) (nextId : ℕ) : Replenished [] (Client.new path nextId) :=
  ⟨⟨fun _ => rfl, nofun⟩, rfl, fun _ h => absurd h List.not_mem_nil, .inl ⟨le_refl 0, le_refl 0⟩, nofun⟩

theorem granting_step (hstep : client.step c i = some (c', out)) {call : NativeCall} {bytes slots : ℤ}
    (hcalling : c'.calling = some (call, .credit bytes slots)) : ∃ length ∈ lengths (inputs ++ [i]),
      c'.port.readBytes + bytes = BindingPort.window length ∧ c'.port.readSlots + slots = 32 := by
  have hno : c'.calling ≠ none := by
    rw [hcalling]
    nofun
  cases Client.step_requestStep hstep with
  | method hi hc hsub =>
    cases hsub.submission with
    | none hnone ho => exact absurd hnone hno
    | credit length bytes' slots' hasked hcredit hcall hopen ho =>
      rw [hcall] at hcalling
      cases hcalling
      obtain ⟨hbytes, hslots, -⟩ := BindingPort.credit_spec hcredit
      refine ⟨length, ?_, ?_, ?_⟩
      · rw [lengths_append, asked_window hasked]
        exact List.mem_append_right _ (List.mem_singleton_self _)
      · rw [hsub.frame.readBytes]
        exact hbytes
      · rw [hsub.frame.readSlots]
        exact hslots
    | operation op site' room hsite hcredit hasked hcall hopen ho =>
      rw [hcall] at hcalling
      cases hcalling
      exact absurd rfl (hcredit _ _)
  | dropped hc hsite ha hmay hjs hout =>
    rw [hjs] at hno
    exact absurd (Client.answered_dropped (c := c) _ hsite ha).2.2 hno
  | queued hc hsite ha => exact absurd ha.calling hno
  | credited hc hnone hsame hout => exact absurd hnone hno
  | event hidle hev hsame hout => exact absurd (hsame.calling.trans (Client.idle_calling hidle)) hno
  | other hc hsame hout hi ha => exact absurd (hsame.calling.trans hc) hno

/-- **Every step keeps the invariant**, as long as no empty buffer is received. -/
theorem step (h : Replenished inputs c) (hreceived : ∀ data ∈ i.received, data ≠ [])
    (hstep : client.step c i = some (c', out)) : Replenished (inputs ++ [i]) c' := by
  obtain ⟨⟨hwf, hscheduled⟩, hread⟩ := Client.step_readStep h.wf h.scheduled hstep
  have hsame : c'.port.readBytes = c.port.readBytes → c'.port.readSlots = c.port.readSlots →
      (c'.port.readBytes ≤ 0 ∧ c'.port.readSlots ≤ 0) ∨
        ∃ length ∈ lengths (inputs ++ [i]), Balanced (BindingPort.window length) c'.port := by
    intro hb hs
    rw [hb, hs]
    refine h.balance.imp_right ?_
    rintro ⟨length, hmem, h1, h2, h3⟩
    exact ⟨length, mem_lengths_snoc hmem i, hs ▸ h1, by rw [hb, hs]; exact h2, by rw [hb, hs]; exact h3⟩
  refine ⟨hwf, hscheduled, ?_, ?_, fun call bytes slots hcalling => granting_step hstep hcalling⟩
  · cases hread with
    | kept hpassed hcredits hheld hb hs =>
      rw [hheld]
      intro data hmem
      exact (List.mem_append.1 hmem).elim (h.held data) (hreceived data)
    | credited bytes slots hc hi hpassed hcredits hheld hb hs =>
      rw [hheld]
      exact h.held
    | passed data hc hopen hno hrec hpassed hcredits hheld hb hs =>
      intro other hmem
      exact h.held other (hheld ▸ List.mem_cons_of_mem _ hmem)
    | dropped gone hc hclosed hno hrec hpassed hcredits hheld hb hs =>
      intro other hmem
      exact h.held other (hheld ▸ List.mem_append_right _ hmem)
  · cases hread with
    | kept hpassed hcredits hheld hb hs => exact hsame hb hs
    | credited bytes slots hc hi hpassed hcredits hheld hb hs =>
      obtain ⟨length, hmem, hbytes, hslots⟩ := h.granting _ _ _ hc
      exact .inr ⟨length, mem_lengths_snoc hmem i, .start (hb.trans hbytes) (hs.trans hslots)⟩
    | passed data hc hopen hno hrec hpassed hcredits hheld hb hs =>
      have hdata : data ≠ [] := h.held data (hheld ▸ List.mem_cons_self)
      rcases h.balance with ⟨hb0, hs0⟩ | ⟨length, hmem, hbalance⟩
      · left
        omega
      · exact .inr ⟨length, mem_lengths_snoc hmem i, hbalance.passed hdata hb hs⟩
    | dropped gone hc hclosed hno hrec hpassed hcredits hheld hb hs => exact hsame hb hs

end Replenished

/-! ### `startReading` returns -/

/-- **`startReading` returns normally**: it makes no call of the native handle and does not throw, or the native handle
takes its credit. -/
def Client.Reads (c' : Client) (i : Input) (out : List Output) : Prop :=
  (∃ length, i = .invoke (.startReading length)) ∧ c'.calling = none ∧ (∀ error, .threw error ∉ out) ∨
    ∃ bytes slots, .credited bytes slots ∈ out

/-- Where `startReading` returns without a call, it granted nothing. -/
theorem Client.startReading_returns {c c' : Client} {length : ℤ} {out : List Output}
    (hstep : client.step c (.invoke (.startReading length)) = some (c', out)) (hcalling : c'.calling = none)
    (hthrew : ∀ error, .threw error ∉ out) :
    c.port.credit length = none ∧ c'.port.readBytes = c.port.readBytes ∧ c'.port.readSlots = c.port.readSlots := by
  change c.step (.invoke (.startReading length)) = some (c', out) at hstep
  cases step_runs hstep with
  | invoke m =>
    have hno : ∀ error, .threw error ∉ (c.promise.2.startReading length).2 :=
      fun error hmem => hthrew error (List.mem_cons_of_mem _ hmem)
    change (c.promise.2.startReading length).1.calling = none at hcalling
    show _ ∧ (c.promise.2.startReading length).1.port.readBytes = _ ∧ (c.promise.2.startReading length).1.port.readSlots = _
    unfold startReading at hcalling hno ⊢
    split at hcalling
    · rename_i hclosed
      rw [if_pos hclosed] at hno
      exact absurd (List.mem_singleton_self _) (hno _)
    · rename_i hopen
      rw [if_neg hopen] at hno ⊢
      split at hcalling
      · rename_i hreading
        rw [if_pos hreading] at hno
        exact absurd (List.mem_singleton_self _) (hno _)
      · rename_i hreading
        rw [if_neg hreading] at hno ⊢
        dsimp only at hcalling hno ⊢
        cases hcredit : c.port.credit length with
        | none =>
          have hcredit' : ({ c.promise.2.port with streaming := true } : BindingPort).credit length = none := hcredit
          rw [hcredit']
          exact ⟨rfl, rfl, rfl⟩
        | some credit =>
          exfalso
          have hcredit' : ({ c.promise.2.port with streaming := true } : BindingPort).credit length = some credit := hcredit
          rw [hcredit'] at hcalling hno
          dsimp only at hcalling hno
          unfold native at hcalling hno
          split at hcalling
          · cases hcalling
          · rename_i hnull
            rw [if_neg hnull] at hno
            exact hno _ (List.mem_singleton_self _)

/-- **There is credit of both kinds** whenever `startReading` returns normally. -/
theorem Replenished.reads {inputs : List Input} {c c' : Client} (h : Replenished inputs c) {i : Input} {out : List Output}
    (hstep : client.step c i = some (c', out)) (hlengths : (lengths (inputs ++ [i])).Pairwise (· ≤ ·))
    (hreads : c'.Reads i out) : 1 ≤ c'.port.readBytes ∧ 1 ≤ c'.port.readSlots := by
  rcases hreads with ⟨⟨length, rfl⟩, hcalling, hthrew⟩ | ⟨bytes, slots, hcredited⟩
  · obtain ⟨hnone, hb, hs⟩ := Client.startReading_returns hstep hcalling hthrew
    rw [hb, hs]
    rcases h.balance with ⟨hb0, hs0⟩ | ⟨length', hmem, hbalance⟩
    · -- nothing was ever granted, so this call would have granted something
      have hpos := BindingPort.window_pos length
      rcases BindingPort.credit_none hnone with ⟨hb, hs⟩ | hb | hs <;> omega
    · refine hbalance.enough (BindingPort.window_pos length') (BindingPort.window_mono ?_) hnone
      rw [lengths_append, List.pairwise_append] at hlengths
      exact hlengths.2.2 length' hmem length (List.mem_singleton_self _)
  · have hmem : (bytes, slots) ∈ credits out := List.mem_filterMap.2 ⟨_, hcredited, rfl⟩
    cases (Client.step_readStep h.wf h.scheduled hstep).2 with
    | kept hpassed hcredits => simp [hcredits] at hmem
    | credited bytes' slots' hc hi hpassed hcredits hheld hb hs =>
      obtain ⟨length, -, hbytes, hslots⟩ := h.granting _ _ _ hc
      have hpos := BindingPort.window_pos length
      omega
    | passed data hc hopen hno hrec hpassed hcredits => simp [hcredits] at hmem
    | dropped gone hc hclosed hno hrec hpassed hcredits => simp [hcredits] at hmem

end NodeSerialport.Binding
