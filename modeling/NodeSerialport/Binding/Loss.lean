import NodeSerialport.Binding.Delivery
/-!
# Lost buffers

A callback that fails has lost the buffers it stood for; the reactor had sent them all the same, and may have queued others behind
it.

* `sent`, `beforeLoss` — what the reactor sent, all of it and up to the first loss;
* `ClosedWhenLate` — what comes after a loss finds the port closed;
* `Client.drains` — what waits is passed on, unless the port is closed before;
* `delivery_no_hole`, `delivery_hole` — when a lost buffer leaves a hole.
-/

namespace NodeSerialport.Binding

open Parsers (Buffer)
open Lib (Machine)

/-- The buffers the reactor sent with one callback. -/
def Input.sent : Input → List Buffer
  | .callback (.failed _ lost) => lost
  | i => i.received

/-- The buffers the reactor sent over a run. -/
def sent (inputs : List Input) : List Buffer := inputs.flatMap Input.sent

/-- A callback that failed, and whose buffers had bytes. -/
def Input.lossy : Input → Bool
  | .callback (.failed _ lost) => lost.flatten ≠ []
  | _ => false

/-- The buffers received before the first loss. -/
def beforeLoss (inputs : List Input) : List Buffer := received (inputs.takeWhile fun i => !i.lossy)

/-- A callback with bytes that comes after a loss finds the port closed. -/
def ClosedWhenLate (inputs : List Input) (_ : List Output) (c : Client) (i : Input) : Prop :=
  inputs.any Input.lossy = true → i.received.flatten ≠ [] → c.port.isOpen = false

/-- The bytes passed on are the first of those sent, and none was sent after a loss. -/
def NoHole (inputs : List Input) (outputs : List Output) : Prop :=
  (passed outputs).flatten <+: (sent inputs).flatten ∧ (passed outputs).flatten <+: (beforeLoss inputs).flatten

/-- A scheduled `deliverRead`, or the return of a listener: not a thing the application or the reactor does. -/
def Input.passive : Input → Bool
  | .microtask | .returns => true
  | _ => false

/-! ### What was sent -/

theorem sent_flatten {inputs : List Input} (h : ∀ i ∈ inputs, i.lossy = false) :
    (sent inputs).flatten = (received inputs).flatten := by
  induction inputs with
  | nil => rfl
  | cons i inputs ih =>
    have hi : i.sent.flatten = i.received.flatten := by
      have hno := h i List.mem_cons_self
      cases i with
      | callback callback =>
        cases callback with
        | failed error lost =>
          show lost.flatten = []
          simpa [Input.lossy] using hno
        | read item => rfl
        | event event => rfl
      | _ => rfl
    have hrest := ih fun j hj => h j (List.mem_cons_of_mem _ hj)
    show (i.sent ++ sent inputs).flatten = (i.received ++ received inputs).flatten
    rw [List.flatten_append, List.flatten_append, hi, hrest]

theorem beforeLoss_prefix_sent (inputs : List Input) : (beforeLoss inputs).flatten <+: (sent inputs).flatten := by
  have hsplit : sent inputs = sent (inputs.takeWhile fun i => !i.lossy) ++ sent (inputs.dropWhile fun i => !i.lossy) := by
    unfold sent
    rw [← List.flatMap_append, List.takeWhile_append_dropWhile]
  have hclean : ∀ i ∈ inputs.takeWhile fun i => !i.lossy, i.lossy = false := by
    intro i hi
    simpa using List.mem_takeWhile_imp hi
  rw [hsplit, List.flatten_append, sent_flatten hclean]
  exact List.prefix_append _ _

theorem beforeLoss_prefix_received (inputs : List Input) : beforeLoss inputs <+: received inputs :=
  List.IsPrefix.flatMap (List.takeWhile_prefix _) _

theorem beforeLoss_eq {inputs : List Input} (h : inputs.any Input.lossy = false) : beforeLoss inputs = received inputs := by
  rw [List.any_eq_false] at h
  unfold beforeLoss
  rw [List.takeWhile_eq_self_iff.2]
  intro i hi
  simpa using h i hi

theorem beforeLoss_append {inputs : List Input} (h : inputs.any Input.lossy = true) (rest : List Input) :
    beforeLoss (inputs ++ rest) = beforeLoss inputs := by
  obtain ⟨i, hi, hlossy⟩ := List.any_eq_true.1 h
  unfold beforeLoss
  rw [List.takeWhile_append, if_neg]
  intro hlen
  have hall : inputs.takeWhile (fun i => !i.lossy) = inputs :=
    (List.takeWhile_prefix _).eq_of_length hlen
  have := List.takeWhile_eq_self_iff.1 hall i hi
  simp [hlossy] at this

theorem beforeLoss_prefix_append (inputs rest : List Input) : beforeLoss inputs <+: beforeLoss (inputs ++ rest) := by
  cases hloss : inputs.any Input.lossy with
  | true =>
    rw [beforeLoss_append hloss]
  | false =>
    have hall : ∀ i ∈ inputs, (!i.lossy) = true := by
      rw [List.any_eq_false] at hloss
      intro i hi
      simpa using hloss i hi
    rw [beforeLoss_eq hloss]
    unfold beforeLoss
    rw [List.takeWhile_append_of_pos hall, received_append]
    exact List.prefix_append _ _

/-! ### Draining -/

namespace Client

variable {c : Client}

theorem run_returns (hopen : c.port.isOpen = true) (hcalling : c.calling = none) (rest : List Buffer) :
    ∃ port : BindingPort, port.isOpen = true ∧ client.run { c with onData := some rest } (List.replicate (rest.length + 1) .returns) =
      some ({ c with port := port, onData := none }, rest.map .data) := by
  induction rest generalizing c with
  | nil =>
    refine ⟨c.port, hopen, Machine.run_singleton ?_⟩
    show (if c.calling.isNone then some (_deliverBatch { c with onData := some [] } []) else none) = _
    rw [hcalling]
    rfl
  | cons data rest ih =>
    obtain ⟨port, hport, hrun⟩ := ih (c := { c with port := c.port.debit data }) hopen hcalling
    refine ⟨port, hport, ?_⟩
    have hstep : client.step { c with onData := some (data :: rest) } .returns =
        some ({ c with port := c.port.debit data, onData := some rest }, [.data data]) := by
      show (if c.calling.isNone then some (_deliverBatch { c with onData := some (data :: rest) } (data :: rest)) else none) = _
      rw [hcalling]
      simp [_deliverBatch, hopen]
    exact Machine.run_cons hstep hrun

theorem passed_map_data (buffers : List Buffer) : passed (buffers.map .data) = buffers := by
  induction buffers with
  | nil => rfl
  | cons data rest ih => exact congrArg (data :: ·) ih

/-- Handed buffers are passed on, the first at once and the others as the listener returns. -/
theorem Handed.run_returns {events : List Buffer} {c' : Client} {out : List Output} (h : c.Handed events c' out)
    (hopen : c.port.isOpen = true) (hcalling : c.calling = none) :
    ∃ later port outputs, (∀ i ∈ later, i.passive = true) ∧ port.isOpen = true ∧
      client.run c' later = some ({ c with port := port, onData := none }, outputs) ∧ Binding.passed (out ++ outputs) = events := by
  cases h with
  | passed ho hevents =>
    rename_i data rest
    obtain ⟨port, hport, hrun⟩ := Client.run_returns (c := { c with port := c.port.debit data }) ho hcalling rest
    refine ⟨_, port, _, fun i hi => ?_, hport, hrun, ?_⟩
    · rw [List.eq_of_mem_replicate hi]
      rfl
    · rw [hevents, passed_append, passed_map_data]
      rfl
  | ended h =>
    refine ⟨[], c.port, [], fun _ hi => absurd hi List.not_mem_nil, hopen, rfl, ?_⟩
    rcases h with hclosed | rfl
    · rw [hopen] at hclosed
      cases hclosed
    · rfl

/-- **What waits is passed on** once the scheduled microtasks have run and the listeners have returned. -/
theorem drains (hwf : c.QueueWF) (hscheduled : c.microtasks = c.items.length) (hopen : c.port.isOpen = true)
    (hdata : c.onData = none) (hcalling : c.calling = none) :
    ∃ later c' outputs, (∀ i ∈ later, i.passive = true) ∧ client.run c later = some (c', outputs) ∧
      passed outputs = c.items.flatMap Item.buffers := by
  induction hitems : c.items generalizing c with
  | nil => exact ⟨[], c, [], fun _ hi => absurd hi List.not_mem_nil, rfl, rfl⟩
  | cons item items ih =>
    have hstep : client.step c .microtask = some { c with microtasks := c.microtasks - 1 }.deliverRead := by
      show (if c.idle && 0 < c.microtasks then _ else none) = _
      rw [idle, hdata, hcalling, hscheduled, hitems]
      rfl
    have hcount : c.microtasks - 1 = items.length := by
      rw [hscheduled, hitems]
      rfl
    obtain ⟨-, htail, hrest⟩ := tailReads_spec (c := { c with microtasks := c.microtasks - 1 }) ⟨hwf.head, hwf.tail⟩ hitems
    have hh := deliverRead_handed (c := { c with microtasks := c.microtasks - 1 }) ⟨hwf.head, hwf.tail⟩ hdata hitems
    rcases hd : deliverRead { c with microtasks := c.microtasks - 1 } with ⟨c₁, out⟩
    rw [hd] at hstep hh
    obtain ⟨first, port, outputs, hfirst, hport, hrun, hpassed⟩ := hh.run_returns hopen hcalling
    obtain ⟨later, c', outputs', hlater, hrun', hpassed'⟩ := ih (c := { tailReads _ with port := port, onData := none })
      ⟨htail.head, htail.tail⟩ (hcount.trans (congrArg List.length hrest).symm) hport rfl hcalling hrest
    refine ⟨.microtask :: first ++ later, c', _, fun i hi => ?_,
      Machine.run_append (Machine.run_cons hstep hrun) hrun', ?_⟩
    · rcases List.mem_append.1 hi with hi | hi
      · rcases List.mem_cons.1 hi with rfl | hi
        · rfl
        · exact hfirst i hi
      · exact hlater i hi
    · rw [passed_append, hpassed, hpassed']
      rfl

end Client

/-! ### Holes -/

/-- What is kept while `ClosedWhenLate` is met: nothing with bytes that came after a loss waits at an open port. -/
structure Unlate (c₀ : Client) (inputs : List Input) (outputs : List Output) (c : Client) : Prop where
  delivery : Delivery c₀ inputs outputs c
  early : (passed outputs).flatten <+: (beforeLoss inputs).flatten
  waiting : c.port.isOpen = true → (received inputs).flatten = (beforeLoss inputs).flatten

theorem Unlate.step {c₀ c c' : Client} {inputs : List Input} {outputs out : List Output} {i : Input}
    (h : Unlate c₀ inputs outputs c) (hlate : ClosedWhenLate inputs outputs c i) (hstep : client.step c i = some (c', out)) :
    Unlate c₀ (inputs ++ [i]) (outputs ++ out) c' := by
  have hdelivery := h.delivery.step hstep
  cases hopen : c.port.isOpen with
  | false =>
    obtain ⟨hshut, hout⟩ := Client.Shut.step ⟨hopen, h.delivery.closing hopen⟩ hstep
    refine ⟨hdelivery, ?_, fun ho => ?_⟩
    · rw [passed_append, hout, List.append_nil]
      exact h.early.trans (beforeLoss_prefix_append inputs [i]).flatten
    · rw [hshut.isOpen] at ho
      cases ho
  | true =>
    have hreceived : (received (inputs ++ [i])).flatten = (beforeLoss (inputs ++ [i])).flatten := by
      cases hloss : inputs.any Input.lossy with
      | true =>
        have hempty : i.received.flatten = [] := by
          by_contra hne
          rw [hlate hloss hne] at hopen
          cases hopen
        rw [beforeLoss_append hloss, received_append, received_singleton, List.flatten_append, hempty, List.append_nil]
        exact h.waiting hopen
      | false =>
        cases hi : i.lossy with
        | false => rw [beforeLoss_eq (by rw [List.any_append, hloss]; simpa using hi)]
        | true =>
          have hempty : i.received = [] := by
            cases i with
            | callback callback =>
              cases callback with
              | failed error lost => rfl
              | read item => cases hi
              | event event => cases hi
            | _ => rfl
          have hbegins := beforeLoss_prefix_append inputs [i]
          have hsub := beforeLoss_prefix_received (inputs ++ [i])
          rw [received_append, received_singleton, hempty, List.append_nil] at hsub ⊢
          rw [beforeLoss_eq hloss] at hbegins
          rw [hbegins.eq_of_length_le hsub.length_le]
    exact ⟨hdelivery, hreceived ▸ hdelivery.sub.flatten, fun _ => hreceived⟩

theorem Unlate.start {c₀ : Client} (hopen : c₀.port.isOpen = true) (hquiet : c₀.Quiet) : Unlate c₀ [] [] c₀ :=
  ⟨.start hopen hquiet, List.prefix_refl _, fun _ => rfl⟩

theorem closedWhenLate_passive {inputs : List Input} {outputs : List Output} {c : Client} {i : Input} (hi : i.passive = true) :
    ClosedWhenLate inputs outputs c i := by
  intro _ hne
  cases i with
  | microtask => exact absurd rfl hne
  | returns => exact absurd rfl hne
  | _ => cases hi

/-- Where a callback with bytes comes after a loss and finds the port open, its bytes are passed on. -/
theorem hole_of_late {c₀ c : Client} {inputs : List Input} {outputs : List Output} {i : Input} (h : Delivery c₀ inputs outputs c)
    (hrun : client.run c₀ inputs = some (c, outputs)) (hlate : ¬ClosedWhenLate inputs outputs c i)
    (htaken : (client.step c i).isSome = true) :
    ∃ later c' outputs', (∀ j ∈ later, j.passive = true) ∧ client.run c₀ (inputs ++ [i] ++ later) = some (c', outputs') ∧
      ¬NoHole (inputs ++ [i] ++ later) outputs' := by
  unfold ClosedWhenLate at hlate
  push Not at hlate
  obtain ⟨hloss, hbytes, hopen⟩ := hlate
  obtain ⟨⟨c₁, out⟩, hstep⟩ := Option.isSome_iff_exists.1 htaken
  obtain ⟨item, rfl⟩ : ∃ item, i = .callback (.read item) := by
    cases i with
    | callback callback =>
      cases callback with
      | read item => exact ⟨item, rfl⟩
      | _ => exact absurd rfl hbytes
    | _ => exact absurd rfl hbytes
  have h₁ := h.step hstep
  have hidle : c.idle = true ∧ c₁ = c.queueRead item := by
    have hstep' : (if c.idle then some (c.queueRead item, []) else none) = some (c₁, out) := hstep
    split at hstep'
    · rename_i hidle
      cases hstep'
      exact ⟨hidle, rfl⟩
    · cases hstep'
  obtain ⟨hport, honData, -, hcalling⟩ := Client.queueRead_frame c item
  have hopen₁ : c₁.port.isOpen = true := by
    rw [hidle.2, hport]
    exact Bool.not_eq_false _ |>.mp hopen
  have hdata₁ : c₁.onData = none := by
    rw [hidle.2, honData]
    exact Option.isNone_iff_eq_none.1 (Bool.and_eq_true_iff.1 hidle.1).1
  have hcalling₁ : c₁.calling = none := by
    rw [hidle.2, hcalling]
    exact Option.isNone_iff_eq_none.1 (Bool.and_eq_true_iff.1 hidle.1).2
  obtain ⟨later, c', outputs', hpassive, hdrained, hpassed⟩ := Client.drains h₁.wf h₁.scheduled hopen₁ hdata₁ hcalling₁
  have hfifo : received (inputs ++ [.callback (.read item)]) = passed (outputs ++ out) ++ c₁.items.flatMap Item.buffers := by
    rw [h₁.fifo hopen₁, Client.held, hdata₁]
    rfl
  refine ⟨later, c', _, hpassive, Machine.run_append (Machine.run_append hrun (Machine.run_singleton hstep)) hdrained, ?_⟩
  rintro ⟨-, hearly⟩
  rw [passed_append, hpassed, ← hfifo, List.append_assoc, beforeLoss_append hloss, received_append, received_singleton,
    List.flatten_append] at hearly
  have hlength := hearly.length_le
  have hbefore := (beforeLoss_prefix_received inputs).flatten.length_le
  have hpos := List.length_pos_of_ne_nil hbytes
  rw [List.length_append] at hlength
  omega

/-- **The bytes the application sees have no hole**, in a run from an open port with nothing queued, wherever the scheduled
microtasks run and the listeners return, if and only if every callback with bytes that comes after a loss finds the port closed. -/
theorem delivery_no_hole (c₀ : Client) (hopen : c₀.port.isOpen = true) (hquiet : c₀.Quiet) (inputs : List Input)
    (hrun : (client.run c₀ inputs).isSome = true) :
    client.Along ClosedWhenLate c₀ inputs ↔
      ∀ pre later, pre <+: inputs → (∀ i ∈ later, i.passive = true) → ∀ c outputs,
        client.run c₀ (pre ++ later) = some (c, outputs) → NoHole (pre ++ later) outputs := by
  constructor
  · rintro halong pre later ⟨post, rfl⟩ hpassive c outputs hrun'
    have halong' : client.Along ClosedWhenLate c₀ (pre ++ later) := by
      induction later using List.reverseRecOn generalizing c outputs with
      | nil =>
        rw [List.append_nil]
        exact halong.of_append
      | append_singleton later i ih =>
        rw [← List.append_assoc] at hrun' ⊢
        obtain ⟨c₁, out₁, -, hrun₁, -, -⟩ := Machine.run_append_inv hrun'
        exact (ih (fun j hj => hpassive j (List.mem_append_left _ hj)) c₁ out₁ hrun₁).snoc
          fun _ _ _ => closedWhenLate_passive (hpassive i (by simp))
    have h := Machine.run_rule (C := ClosedWhenLate) (Unlate c₀) (.start hopen hquiet)
      (fun _ _ _ _ _ _ h hlate hstep => h.step hlate hstep) halong' hrun'
    exact ⟨h.early.trans (beforeLoss_prefix_sent _), h.early⟩
  · rintro hall pre i post rfl c outputs hrun'
    by_contra hlate
    obtain ⟨⟨cₙ, outputsₙ⟩, hrunₙ⟩ := Option.isSome_iff_exists.1 hrun
    obtain ⟨c₁, out₁, rest, hpre, hpost, -⟩ := Machine.run_append_inv hrunₙ
    obtain ⟨rfl, rfl⟩ := Prod.mk.inj (Option.some.inj (hpre.symm.trans hrun'))
    obtain ⟨c₂, out₂, -, hstep, -, -⟩ := Machine.run_cons_inv hpost
    obtain ⟨later, c', outputs', hpassive, hdrained, hhole⟩ :=
      hole_of_late (Delivery.run hopen hquiet hpre) hpre hlate (by rw [hstep]; rfl)
    exact hhole (hall (pre ++ [i]) later ⟨post, by simp⟩ hpassive c' outputs' hdrained)

/-- The application closes the port when a read has failed, before the callback behind it comes. -/
theorem delivery_no_hole_closed : ∃ c outputs,
    client.run { port := { isOpen := true } } [.callback (.read (.buffer [1])), .microtask, .returns,
      .callback (.failed canceledError [[2]]), .invoke .close, .callback (.read (.buffer [3])), .microtask] = some (c, outputs) ∧
    NoHole [.callback (.read (.buffer [1])), .microtask, .returns,
      .callback (.failed canceledError [[2]]), .invoke .close, .callback (.read (.buffer [3])), .microtask] outputs := by
  have hiff := delivery_no_hole { port := { isOpen := true } } rfl ⟨rfl, rfl, rfl, rfl⟩
    [.callback (.read (.buffer [1])), .microtask, .returns,
      .callback (.failed canceledError [[2]]), .invoke .close, .callback (.read (.buffer [3])), .microtask] rfl
  refine ⟨_, _, rfl, hiff.1 ?_ _ [] (List.prefix_refl _) (fun _ hi => absurd hi List.not_mem_nil) _ _ rfl⟩
  refine ((((((Machine.Along.nil _ _).snoc ?_).snoc ?_).snoc ?_).snoc ?_).snoc ?_).snoc ?_ |>.snoc ?_
  · exact fun _ _ _ hloss => absurd hloss (by decide)
  · exact fun _ _ _ hloss => absurd hloss (by decide)
  · exact fun _ _ _ hloss => absurd hloss (by decide)
  · exact fun _ _ _ hloss => absurd hloss (by decide)
  · exact fun _ _ _ _ hne => absurd rfl hne
  · -- the port is closed when the callback comes
    intro c outputs hrun _ _
    cases hrun
    rfl
  · exact fun _ _ _ _ hne => absurd rfl hne

/-- The callback after a failed one is delivered while the port waits for its close event. -/
theorem delivery_hole : ∃ c outputs,
    client.run { port := { isOpen := true } } [.callback (.failed canceledError [[1]]), .callback (.read (.buffer [2])),
      .microtask] = some (c, outputs) ∧
    ¬ (passed outputs).flatten <+: (sent [.callback (.failed canceledError [[1]]), .callback (.read (.buffer [2])),
      .microtask]).flatten :=
  ⟨_, _, rfl, by decide⟩

end NodeSerialport.Binding
