import NodeSerialport.Binding.Replenish
import NodeSerialport.Composition.Linked
/-!
# Top-ups over the native side

* `sent_limits` — the credit a reachable port grants is within the limits of `NativePort`;
* `credit_replenished` — a streaming reader is never left without credit.
-/

namespace NodeSerialport.Composition

open Lib (Machine)
open Binding (Client client lengths received)
open Binding.BindingPort (InRange credit_spec window_le)

variable {s s' : System}

/-- **A top-up that is sent** is within the limits, since the native side passes on no more than it was granted. -/
theorem sent_limits (h : Linked s) {i : Input} {out : List Output} (hstep : system.step s i = some (s', out))
    (hcalling : s.js.calling = none) {bytes slots : ℤ} {site : Binding.Site}
    (hsent : s'.js.calling = some (.readCredit bytes slots, site)) :
    0 < bytes ∧ bytes ≤ 65536 ∧ 0 < slots ∧ slots ≤ 32 := by
  obtain ⟨lost, hfunded⟩ := h.funded
  have hzero : s.granted = (0, 0) := System.granted_none fun _ _ _ hc => nomatch hcalling ▸ hc
  have hbytes := hfunded.bytes
  have hslots := hfunded.slots
  have hheld := totalLength_nonneg s.js.held
  have hlost := totalLength_nonneg lost
  rw [hzero] at hbytes hslots
  change s.js.port.readBytes + 0 = _ at hbytes
  change s.js.port.readSlots + 0 = _ at hslots
  -- the step of JavaScript that begins the call
  obtain ⟨j, js, out', hjs, heq⟩ : ∃ j js out', Binding.client.step s.js j = some (js, out') ∧ s'.js = js := by
    cases system_step hstep with
    | js hi hjs => exact ⟨_, _, _, hjs, rfl⟩
    | native hi hn => exact absurd (hcalling.symm.trans hsent) nofun
    | answer hcall hcalling hjs => exact ⟨_, _, _, hjs, rfl⟩
    | callback hcallbacks hjs => exact ⟨_, _, _, hjs, rfl⟩
  rw [heq] at hsent
  have hno : js.calling ≠ none := by
    rw [hsent]
    nofun
  cases Client.step_requestStep hjs with
  | method hi hc hsub =>
    cases hsub.submission with
    | none hnone ho => exact absurd hnone hno
    | credit length bytes' slots' hasked hcredit hcall hopen ho =>
      rw [hcall] at hsent
      cases hsent
      obtain ⟨hb, hs, hpos, hpos'⟩ := credit_spec hcredit
      have hwindow := window_le length
      refine ⟨hpos, ?_, hpos', ?_⟩ <;> omega
    | operation op site' room hsite hcredit hasked hcall hopen ho =>
      rw [hcall] at hsent
      cases op <;> cases hsent
  | dropped hc hsite ha hmay hjs' hout =>
    rw [hcalling] at hc
    cases hc
  | queued hc hsite ha => exact absurd ha.calling hno
  | credited hc hnone hsame hout => exact absurd hnone hno
  | event hidle hev hsame hout => exact absurd (hsame.calling.trans hcalling) hno
  | other hc hsame hout hi ha => exact absurd (hsame.calling.trans hcalling) hno

/-- **A streaming reader is never left without credit.**

* Over every run of a port in which `startReading` is called with lengths that never decrease and no buffer that is
  delivered is empty, there is credit of both kinds whenever `startReading` returns normally;
* over every run of a port and its native side, a top-up that is sent grants something of both kinds, within the limits of
  `NativePort`. -/
theorem credit_replenished :
    (∀ path nextId inputs c outputs, client.run (Client.new path nextId) inputs = some (c, outputs) →
      (∀ data ∈ received inputs, data ≠ []) → ∀ i c' out, client.step c i = some (c', out) →
      (lengths (inputs ++ [i])).Pairwise (· ≤ ·) → c'.Reads i out →
      1 ≤ c'.port.readBytes ∧ 1 ≤ c'.port.readSlots) ∧
    ∀ path nextId, InRange nextId → ∀ inputs s outputs,
      system.run (System.new path nextId) inputs = some (s, outputs) → s.native.teardown = false →
      ∀ i s' out, system.step s i = some (s', out) → s.js.calling = none →
      ∀ bytes slots site, s'.js.calling = some (.readCredit bytes slots, site) →
      0 < bytes ∧ bytes ≤ 65536 ∧ 0 < slots ∧ slots ≤ 32 := by
  refine ⟨?_, ?_⟩
  · intro path nextId inputs c outputs hrun hreceived i c' out hstep hlengths hreads
    have hreplenished : Binding.Replenished inputs c := by
      refine (Machine.run_rule (C := fun _ _ _ i => ∀ data ∈ i.received, data ≠ [])
        (fun inputs _ c => Binding.Replenished inputs c) (.start path nextId)
        (fun _ _ _ _ _ _ h hne hs => h.step hne hs) ?_ hrun)
      rintro pre i post rfl _ _ _ data hmem
      refine hreceived data (List.mem_flatMap.2 ⟨i, ?_, hmem⟩)
      simp
    exact hreplenished.reads hstep hlengths hreads
  · intro path nextId hnextId inputs s outputs hrun hteardown i s' out hstep hcalling bytes slots site hsent
    exact sent_limits (Credited.run hnextId hrun hteardown).linked hstep hcalling hsent

/-- A byte uses up a slot, and the window grows; then the first top-up of a port and its native side. -/
theorem credit_replenished_growing : (∃ c outputs c' out,
    client.run (Client.new "/dev/ttyS0" 1) [.callback (.event { kind := .opened, id := 0 }), .invoke (.startReading 100),
      .answer .queued, .callback (.read (.buffer [1])), .microtask, .returns, .invoke (.startReading 200)] =
        some (c, outputs) ∧
    client.step c (.answer .queued) = some (c', out) ∧ 1 ≤ c'.port.readBytes ∧ 1 ≤ c'.port.readSlots) ∧
    ∃ s outputs s' out,
      system.run (System.new "/dev/ttyS0" 1) [.native (.reactor (.opened (.ok ()))), .native (.reactor .run),
        .callback (fun _ => .ok 2)] = some (s, outputs) ∧
      system.step s (.js (.invoke (.startReading 100))) = some (s', out) ∧ (100 : ℤ) ≤ 65536 := by
  refine ⟨⟨_, _, _, _, rfl, rfl, ?_⟩, _, _, _, _, rfl, rfl, ?_⟩
  · exact credit_replenished.1 "/dev/ttyS0" 1 [.callback (.event { kind := .opened, id := 0 }), .invoke (.startReading 100),
      .answer .queued, .callback (.read (.buffer [1])), .microtask, .returns, .invoke (.startReading 200)] _ _ rfl (by decide)
      (.answer .queued) _ _ rfl (by decide) (.inr ⟨101, 1, List.mem_singleton_self _⟩)
  · exact (credit_replenished.2 "/dev/ttyS0" 1 ⟨by decide, by decide⟩ [.native (.reactor (.opened (.ok ()))),
      .native (.reactor .run), .callback (fun _ => .ok 2)] _ _ rfl rfl (.js (.invoke (.startReading 100))) _ _ rfl rfl 100 32
      _ rfl).2.1

end NodeSerialport.Composition
