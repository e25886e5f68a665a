import NodeSerialport.Lib.Rank
import NodeSerialport.Native.Delivery
/-!
# The reactor comes to its end

Once the stop flag is set, the reactor takes a bounded number of turns to its end, whatever the device does, and waits for
nothing but the call of the device it is in.  `Control::stop` sets the flag and leaves a permit with `changed`, a `Notify`,
so a reactor that is about to wait in the `select!` goes on at once.

* `Pc.edge` — the control flow of the reactor, with the stop flag set or not; `stepReactor_follows`;
* `Pc.rank` — the turns that are left at most, once the flag is set;
* `NativePort.turns` — the turns of a step: a poll of the device that comes back empty is none;
* `Waker` — the port with the permit of `changed`, and `Heeded`, its invariant;
* `Waker.GoesOn` — a step that needs nothing but what a call of the device returns;
* `shutdown_bounded` — over every run.
-/

namespace NodeSerialport.Native

open Parsers (Buffer)
open Lib (Machine)

variable {n n' : NativePort} {out : List Output} {i : ReactorInput}

/-! ### The control flow of the reactor -/

/-- **Where the reactor goes** from a place, with the stop flag set or not. -/
def Pc.edge (stop : Bool) : Pc → Pc → Bool
  | .opening, .opened | .opening, .done _ => true
  | .opened, .top => !stop
  | .opened, .done _ => true
  | .top, .commands => !stop
  | .top, .done _ => true
  | .commands, .execute | .commands, .complete _ => !stop
  | .commands, .select | .commands, .done _ => true
  | .execute, .select | .execute, .draining | .execute, .complete _ | .execute, .done _ => true
  | .draining, .complete _ => true
  | .complete _, .notify _ => true
  | .notify _, .commands | .notify _, .done _ => true
  | .select, .select | .select, .top | .select, .reply _ | .select, .filled .. | .select, .done _ => true
  | .reply _, .top | .reply _, .done _ => true
  | .filled .., .single _ | .filled .., .first _ => true
  | .single _, .top | .single _, .done _ => true
  | .first _, .top | .first _, .burst .. | .first _, .done _ => true
  | .burst .., .burst .. => !stop
  | .burst .., .publish .. => true
  | .publish .., .top | .publish .., .done _ => true
  | .done _, .stopped _ | .stopped _, .released _ | .released _, .reported | .reported, .closed => true
  | _, _ => false

/-- **How many turns are left at most**, once the stop flag is set. -/
def Pc.rank : Pc → ℕ
  | .closed => 0
  | .reported => 1
  | .released _ => 2
  | .stopped _ => 3
  | .done _ => 4
  | .top | .opened => 5
  | .opening | .reply _ | .single _ | .publish .. => 6
  | .burst .. => 7
  | .first _ => 8
  | .filled .. => 9
  | .select => 10
  | .commands => 11
  | .notify _ => 12
  | .complete _ => 13
  | .draining => 14
  | .execute => 15

theorem Pc.rank_le (pc : Pc) : pc.rank ≤ 15 := by
  cases pc <;> simp [Pc.rank]

theorem Pc.rank_zero {pc : Pc} : pc.rank = 0 ↔ pc = .closed := by
  cases pc <;> simp [Pc.rank]

theorem Pc.edge_rank {pc pc' : Pc} (h : pc.edge true pc' = true) : pc'.rank < pc.rank ∨ pc = .select ∧ pc' = .select := by
  cases pc <;> cases pc' <;> simp_all [Pc.edge, Pc.rank]

/-- The device is released. -/
def Pc.free : Pc → Bool
  | .released _ | .reported | .closed => true
  | _ => false

/-- **One step of the reactor**: along the control flow, and what it does to the flag and to what it holds. -/
structure Follows (n n' : NativePort) : Prop where
  edge : n.reactor.pc.edge n.stop n'.reactor.pc = true
  stop : n.stop = true → n'.stop = true
  session : n'.reactor.pc.free = true → n'.session = false ∨ n'.session = n.session ∧ n.reactor.pc.free = true
  receiving : n'.reactor.pc = .closed → n'.receiving = false

theorem Follows.on {pc pc' : Pc} (hpc : n.reactor.pc = pc) (hpc' : n'.reactor.pc = pc') (hedge : pc.edge n.stop pc' = true)
    (hstop : n'.stop = n.stop) (hfree : pc'.free = false) : Follows n n' := by
  subst hpc hpc'
  refine ⟨hedge, fun h => hstop.trans h, fun h => ?_, fun h => ?_⟩
  · cases hfree.symm.trans h
  · rw [h] at hfree
    cases hfree

theorem Follows.goto {m : NativePort} {pc pc' : Pc} (hpc : n.reactor.pc = pc) (hedge : pc.edge n.stop pc' = true)
    (hm : m.stop = n.stop) (hfree : pc'.free = false) : Follows n (m.goto pc') := .on hpc rfl hedge hm hfree

theorem sendAnd_follows {m : NativePort} {event : CallbackEvent} {next : NativePort → NativePort} {pc : Pc}
    (hpc : n.reactor.pc = pc) (hedge : pc.edge n.stop (.done (.ok ())) = true) (hm : m.stop = n.stop)
    (hnext : ∀ m : NativePort, m.stop = n.stop → Follows n (next m)) (hstep : m.sendAnd event next = (n', out)) :
    Follows n n' := by
  rw [sendAnd_eq] at hstep
  split at hstep <;> cases hstep
  · exact hnext _ hm
  · exact .on hpc rfl hedge hm rfl

theorem stepCommands_follows (hpc : n.reactor.pc = .commands) : Follows n n.stepCommands := by
  unfold NativePort.stepCommands
  split
  · exact .on hpc rfl rfl rfl rfl
  · split
    · exact .on hpc rfl rfl rfl rfl
    · rename_i hstop
      have hedge : (!n.stop) = true := by simp [hstop]
      split
      · split
        · exact .on hpc rfl rfl rfl rfl
        · exact .on hpc rfl hedge rfl rfl
      · exact .on hpc rfl hedge rfl rfl

theorem stepReceived_follows (hpc : n.reactor.pc = .select) (hstep : n.stepReceived = some n') :
    Follows n n' ∧ n'.reactor.pc ≠ .select := by
  unfold NativePort.stepReceived at hstep
  split at hstep
  · cases hstep
  · dsimp only at hstep
    split at hstep
    · split at hstep <;> cases hstep <;> exact ⟨.on hpc rfl rfl rfl rfl, nofun⟩
    · split at hstep <;> cases hstep <;> exact ⟨.on hpc rfl rfl rfl rfl, nofun⟩
    · cases hstep
      exact ⟨.on hpc rfl rfl rfl rfl, nofun⟩

/-- A poll of the device that comes back empty. -/
def NativePort.fruitless (n : NativePort) : ReactorInput → Bool
  | .transfer reader writer =>
    match (n.reactor.transfers.poll n.reactor.readCapacity n.reactor.write reader writer).1.1 with
    | .pending => true
    | _ => false
  | _ => false

theorem stepTransfer_follows {reader : Io Buffer} {writer : Io ℕ} (hpc : n.reactor.pc = .select)
    (hstep : n.stepTransfer reader writer = some (n', out)) :
    Follows n n' ∧ (n'.reactor.pc = .select → n.fruitless (.transfer reader writer) = true) := by
  unfold NativePort.stepTransfer at hstep
  dsimp only at hstep
  split at hstep
  · cases hstep
  · split at hstep
    · rename_i hpoll
      cases hstep
      refine ⟨.on hpc hpc rfl rfl rfl, fun _ => ?_⟩
      simp only [NativePort.fruitless]
      rw [hpoll]
    · cases hstep
      exact ⟨.on hpc rfl rfl rfl rfl, nofun⟩
    · split at hstep
      · unfold NativePort.stepRead at hstep
        dsimp only at hstep
        split at hstep
        · cases hstep
          exact ⟨.on hpc rfl rfl rfl rfl, nofun⟩
        · split at hstep
          · cases hstep
            exact ⟨.on hpc rfl rfl rfl rfl, nofun⟩
          · split at hstep <;> cases hstep <;> exact ⟨.on hpc rfl rfl rfl rfl, nofun⟩
      · cases hstep
    · split at hstep
      · split at hstep <;> cases hstep <;> exact ⟨.on hpc rfl rfl rfl rfl, nofun⟩
      · cases hstep

theorem sendRead_follows {length : ℕ} {pc pc' : Pc} (hpc : n.reactor.pc = pc) (hedge : pc.edge n.stop (.done (.ok ())) = true)
    (hnext : pc.edge n.stop pc' = true) (hfree : pc'.free = false) (hstep : n.sendRead length pc' = (n', out)) :
    Follows n n' := by
  unfold NativePort.sendRead at hstep
  dsimp only at hstep
  refine sendAnd_follows hpc hedge ?_ (fun m hm => .goto hpc hnext hm hfree) hstep
  rfl

theorem stepBurst_follows {left : ℕ} {first : Option Buffer} {batch : List Buffer} {result : Except IoError Buffer}
    (hpc : n.reactor.pc = .burst left first batch) (hgoes : n.burstGoesOn left = true)
    (hstep : n.stepBurst left first batch result = some (n', out)) : Follows n n' := by
  have hedge : (!n.stop) = true := by
    simp only [NativePort.burstGoesOn, Bool.and_eq_true] at hgoes
    exact hgoes.1.1.1.2
  unfold NativePort.stepBurst at hstep
  dsimp only at hstep
  split at hstep
  · split at hstep <;> cases hstep <;> exact .on hpc rfl rfl rfl rfl
  · split at hstep
    · split at hstep <;> cases hstep
      · exact .on hpc rfl rfl rfl rfl
      · exact .on hpc rfl hedge rfl rfl
    · cases hstep

theorem stepPublish_follows {collected : Except IoError Unit} {first : Option Buffer} {batch : List Buffer}
    (hpc : n.reactor.pc = .publish collected first batch) (hstep : n.stepPublish collected first batch = (n', out)) :
    Follows n n' := by
  have hafter (m : NativePort) (hm : m.stop = n.stop) : Follows n (NativePort.afterBurst collected m) := by
    cases collected with
    | ok => exact .on hpc rfl rfl hm rfl
    | error error => exact .on hpc rfl rfl hm rfl
  unfold NativePort.stepPublish at hstep
  split at hstep
  · exact sendAnd_follows hpc rfl rfl hafter hstep
  · split at hstep
    · cases hstep
      exact hafter n rfl
    · exact sendAnd_follows hpc rfl rfl hafter hstep

theorem opened_follows (hpc : n.reactor.pc = .opened) (hstep : n.stepReactor .run = some (n', out)) : Follows n n' := by
  simp only [NativePort.stepReactor, hpc] at hstep
  split at hstep
  · cases hstep
    exact .on hpc rfl rfl rfl rfl
  · rename_i hstop
    rw [send_eq] at hstep
    split at hstep <;> rename_i heq <;> split at heq <;> cases heq <;> cases hstep
    · exact .on hpc rfl (show (!n.stop) = true by simp [hstop]) rfl rfl
    · exact .on hpc rfl rfl rfl rfl

theorem asked_follows {result : Except IoError ℕ} (hpc : n.reactor.pc = .execute)
    (hstep : n.stepReactor (.bytesToWrite result) = some (n', out)) : Follows n n' := by
  simp only [NativePort.stepReactor, hpc] at hstep
  split at hstep
  · split at hstep
    · cases hstep
      exact .on hpc rfl rfl rfl rfl
    · split at hstep <;> cases hstep <;> exact .on hpc rfl rfl rfl rfl
  · cases hstep

theorem execute_follows {result : Except IoError DeviceStatus} (hpc : n.reactor.pc = .execute)
    (hstep : n.stepReactor (.executed result) = some (n', out)) : Follows n n' := by
  simp only [NativePort.stepReactor, hpc] at hstep
  split at hstep
  · cases hstep
  · cases hstep
  · split at hstep <;> cases hstep <;> exact .on hpc rfl rfl rfl rfl

theorem drained_follows {result : Except IoError Unit} (hpc : n.reactor.pc = .draining)
    (hstep : n.stepReactor (.drained result) = some (n', out)) : Follows n n' := by
  simp only [NativePort.stepReactor, hpc] at hstep
  split at hstep
  · cases hstep
  · split at hstep <;> cases hstep <;> exact .on hpc rfl rfl rfl rfl

theorem released_follows {result : Except IoError Unit} (hpc : n.reactor.pc = .released result)
    (hstep : n.stepReactor .run = some (n', out)) : Follows n n' := by
  simp only [NativePort.stepReactor, hpc] at hstep
  rw [send_eq] at hstep
  split at hstep <;> rename_i heq <;> split at heq <;> cases heq <;> cases hstep <;>
    exact ⟨hpc ▸ rfl, id, fun _ => .inr ⟨rfl, hpc ▸ rfl⟩, fun h => by cases h⟩

theorem select_follows (hpc : n.reactor.pc = .select) (hstep : n.stepReactor i = some (n', out)) :
    Follows n n' ∧ (n'.reactor.pc = .select → n.fruitless i = true) := by
  cases i with
  | received =>
    simp only [NativePort.stepReactor, hpc] at hstep
    obtain ⟨m, hm, heq⟩ := Option.map_eq_some_iff.1 hstep
    cases heq
    obtain ⟨h, hselect⟩ := stepReceived_follows hpc hm
    exact ⟨h, fun hs => absurd hs hselect⟩
  | transfer reader writer =>
    simp only [NativePort.stepReactor, hpc] at hstep
    exact stepTransfer_follows hpc hstep
  | notified =>
    simp only [NativePort.stepReactor, hpc] at hstep
    cases hstep
    exact ⟨.on hpc rfl rfl rfl rfl, fun h => by cases h⟩
  | disconnected | timer =>
    simp only [NativePort.stepReactor, hpc] at hstep
    split at hstep <;> cases hstep
    exact ⟨.on hpc rfl rfl rfl rfl, fun h => by cases h⟩
  | _ =>
    simp only [NativePort.stepReactor, hpc] at hstep
    cases hstep

/-- A step outside the `select!`. -/
theorem busy_follows (hbusy : n.reactor.pc ≠ .select) (hstep : n.stepReactor i = some (n', out)) : Follows n n' := by
  have hwhole := hstep
  unfold NativePort.stepReactor at hstep
  split at hstep
  -- opening
  · rename_i hpc
    cases hstep
    exact .on hpc rfl rfl rfl rfl
  · rename_i hpc
    cases hstep
    exact .on hpc rfl rfl rfl rfl
  · rename_i hpc
    exact opened_follows hpc hwhole
  -- the commands
  · rename_i hpc
    split at hstep <;> cases hstep
    · exact .on hpc rfl rfl rfl rfl
    · rename_i hstop
      exact .on hpc rfl (show (!n.stop) = true by simp [hstop]) rfl rfl
  · rename_i hpc
    cases hstep
    exact stepCommands_follows hpc
  · rename_i hpc
    exact asked_follows hpc hwhole
  · rename_i hpc
    exact execute_follows hpc hwhole
  · rename_i hpc
    exact drained_follows hpc hwhole
  · rename_i hpc
    cases hstep
    exact .on hpc rfl rfl rfl rfl
  · rename_i hpc
    refine sendAnd_follows hpc rfl rfl ?_ (Option.some.inj hstep)
    exact fun m hm => .on hpc rfl rfl hm rfl
  · rename_i hpc
    refine sendAnd_follows hpc rfl rfl ?_ (Option.some.inj hstep)
    exact fun m hm => .on hpc rfl rfl hm rfl
  iterate 5
    · rename_i hpc
      exact absurd hpc hbusy
  -- a read
  · rename_i hpc
    split at hstep <;> cases hstep <;> exact .on hpc rfl rfl rfl rfl
  · rename_i hpc
    exact sendRead_follows hpc rfl rfl rfl (Option.some.inj hstep)
  · rename_i hpc
    refine sendRead_follows hpc rfl ?_ ?_ (Option.some.inj hstep) <;> split <;> rfl
  · rename_i hpc
    split at hstep <;> cases hstep
    exact .on hpc rfl rfl rfl rfl
  · rename_i hpc
    split at hstep <;> cases hstep
    exact .on hpc rfl rfl rfl rfl
  · rename_i hpc
    split at hstep
    · rename_i hgoes
      exact stepBurst_follows hpc hgoes hstep
    · cases hstep
  · rename_i hpc
    exact stepPublish_follows hpc (Option.some.inj hstep)
  -- `Completion` is dropped
  · rename_i hpc
    cases hstep
    exact ⟨hpc ▸ rfl, fun _ => rfl, nofun, nofun⟩
  · rename_i hpc
    cases hstep
    exact ⟨hpc ▸ rfl, id, fun _ => .inl rfl, nofun⟩
  · rename_i hpc
    exact released_follows hpc hwhole
  · rename_i hpc
    cases hstep
    exact ⟨hpc ▸ rfl, id, fun _ => .inr ⟨rfl, hpc ▸ rfl⟩, fun _ => rfl⟩
  · cases hstep

/-- **Every step of the reactor follows its control flow**, and stays in the `select!` only where a poll comes back empty. -/
theorem stepReactor_follows (hstep : n.stepReactor i = some (n', out)) :
    Follows n n' ∧ (n.reactor.pc = .select → n'.reactor.pc = .select → n.fruitless i = true) := by
  by_cases hselect : n.reactor.pc = .select
  · obtain ⟨h, hfruitless⟩ := select_follows hselect hstep
    exact ⟨h, fun _ => hfruitless⟩
  · exact ⟨busy_follows hselect hstep, fun hs => absurd hs hselect⟩

/-! ### Turns -/

/-- The turns of the reactor. -/
def NativePort.turns (n : NativePort) : Input → List ReactorInput
  | .reactor i => if n.fruitless i then [] else [i]
  | _ => []

theorem step_session {i : Input} (hi : ∀ input, i ≠ .reactor input) (hstep : native.step n i = some (n', out)) :
    n'.session = n.session := by
  change n.step i = some (n', out) at hstep
  unfold NativePort.step at hstep
  cases i with
  | reactor input => exact absurd rfl (hi input)
  | advance writer =>
    dsimp only at hstep
    split at hstep
    · cases hstep
    · cases stepCall_moves hstep <;> rfl
  | stop | teardown =>
    cases hstep
    rfl
  | call | returns | consume =>
    dsimp only at hstep
    split at hstep <;> cases hstep
    rfl

theorem turns_of_other {i : Input} (hi : ∀ input, i ≠ .reactor input) : n.turns i = [] := by
  cases i with
  | reactor input => exact absurd rfl (hi input)
  | _ => rfl

/-- **Every turn uses up one**, once the stop flag is set. -/
theorem step_rank (hstop : n.stop = true) {i : Input} (hstep : native.step n i = some (n', out)) :
    n'.stop = true ∧ (n.turns i).length + n'.reactor.pc.rank ≤ n.reactor.pc.rank := by
  by_cases hi : ∃ input, i = .reactor input
  · obtain ⟨input, rfl⟩ := hi
    obtain ⟨hfollows, hselect⟩ := stepReactor_follows hstep
    refine ⟨hfollows.stop hstop, ?_⟩
    have hedge := hfollows.edge
    rw [hstop] at hedge
    show (if n.fruitless input then [] else [input]).length + _ ≤ _
    rcases Pc.edge_rank hedge with hrank | ⟨hpc, hpc'⟩
    · split
      · rw [List.length_nil]
        omega
      · rw [List.length_singleton]
        omega
    · rw [if_pos (hselect hpc hpc'), hpc, hpc']
      exact Nat.le_of_eq (Nat.zero_add _)
  · have hother : ∀ input, i ≠ .reactor input := not_exists.1 hi
    obtain ⟨hsame, -⟩ := step_sameReactor hother hstep
    rw [turns_of_other hother, hsame.reactor]
    exact ⟨hsame.stop hstop, Nat.le_of_eq (Nat.zero_add _)⟩

/-- What the end of the reactor leaves behind. -/
structure Freed (n : NativePort) : Prop where
  session : n.reactor.pc.free = true → n.session = false
  receiving : n.reactor.pc = .closed → n.receiving = false

theorem Freed.start : Freed {} := ⟨nofun, nofun⟩

theorem Freed.step (h : Freed n) {i : Input} (hstep : native.step n i = some (n', out)) : Freed n' := by
  by_cases hi : ∃ input, i = .reactor input
  · obtain ⟨input, rfl⟩ := hi
    obtain ⟨hfollows, -⟩ := stepReactor_follows hstep
    refine ⟨fun hfree => ?_, hfollows.receiving⟩
    rcases hfollows.session hfree with hsession | ⟨hsession, hfree'⟩
    · exact hsession
    · exact hsession.trans (h.session hfree')
  · have hother : ∀ input, i ≠ .reactor input := not_exists.1 hi
    obtain ⟨hsame, -⟩ := step_sameReactor hother hstep
    refine ⟨fun hfree => ?_, fun hpc => ?_⟩
    · rw [hsame.reactor] at hfree
      exact (step_session hother hstep).trans (h.session hfree)
    · rw [hsame.reactor] at hpc
      exact hsame.receiving.trans (h.receiving hpc)

/-! ### The permit -/

/-- **The port with the permit** that `Control::stop` leaves with `changed`. -/
structure Waker where
  port : NativePort := {}
  permit : Bool := false

namespace Waker

/-- One step: `stop` leaves a permit, and the `select!` takes it. -/
def step (w : Waker) (i : Input) : Option (Waker × List Output) :=
  match i with
  | .stop => (w.port.step .stop).map fun (port, out) => (⟨port, true⟩, out)
  | .reactor .notified => if w.permit then (w.port.step (.reactor .notified)).map fun (port, out) => (⟨port, false⟩, out) else none
  | i => (w.port.step i).map fun (port, out) => (⟨port, w.permit⟩, out)

end Waker

def waker : Machine Waker Input Output := ⟨Waker.step⟩

variable {w w' : Waker}

/-- **A step of the port**, with what it does to the permit. -/
theorem waker_step {i : Input} (hstep : waker.step w i = some (w', out)) :
    native.step w.port i = some (w'.port, out) ∧
      (i = .stop ∧ w'.permit = true ∨ i = .reactor .notified ∧ w.permit = true ∨ i ≠ .stop ∧ w'.permit = w.permit) := by
  change w.step i = some (w', out) at hstep
  unfold Waker.step at hstep
  split at hstep
  · obtain ⟨⟨port, out'⟩, hport, heq⟩ := Option.map_eq_some_iff.1 hstep
    cases heq
    exact ⟨hport, .inl ⟨rfl, rfl⟩⟩
  · split at hstep
    · rename_i hpermit
      obtain ⟨⟨port, out'⟩, hport, heq⟩ := Option.map_eq_some_iff.1 hstep
      cases heq
      exact ⟨hport, .inr (.inl ⟨rfl, hpermit⟩)⟩
    · cases hstep
  · rename_i hstop hnotified
    obtain ⟨⟨port, out'⟩, hport, heq⟩ := Option.map_eq_some_iff.1 hstep
    cases heq
    exact ⟨hport, .inr (.inr ⟨hstop, rfl⟩)⟩

theorem stepReactor_notified (hstep : n.stepReactor .notified = some (n', out)) : n'.reactor.pc = .top := by
  cases hpc : n.reactor.pc with
  | select =>
    simp only [NativePort.stepReactor, hpc] at hstep
    cases hstep
    rfl
  | _ => simp [NativePort.stepReactor, hpc] at hstep

/-- **No stop is missed**: where `Control::stop` was called, the flag is set, and the permit is there until the reactor is
past its last wait. -/
structure Heeded (inputs : List Input) (w : Waker) : Prop where
  fits : Fits w.port
  freed : Freed w.port
  stop : .stop ∈ inputs → w.port.stop = true
  permit : .stop ∈ inputs → w.permit = true ∨ w.port.reactor.pc.rank ≤ 5

theorem Heeded.step {inputs : List Input} (h : Heeded inputs w) {i : Input} (hstep : waker.step w i = some (w', out)) :
    Heeded (inputs ++ [i]) w' := by
  obtain ⟨hport, hpermit⟩ := waker_step hstep
  have hset : i = .stop → w'.port.stop = true := by
    rintro rfl
    obtain ⟨heq, -⟩ := Prod.mk.inj (Option.some.inj hport)
    rw [← heq]
  refine ⟨h.fits.step hport, h.freed.step hport, fun hmem => ?_, fun hmem => ?_⟩
  · rcases List.mem_append.1 hmem with hmem | hmem
    · exact (step_rank (h.stop hmem) hport).1
    · exact hset (List.mem_singleton.1 hmem).symm
  · rcases hpermit with ⟨-, hpermit⟩ | ⟨rfl, -⟩ | ⟨hi, hpermit⟩
    · exact .inl hpermit
    · exact .inr (by rw [stepReactor_notified hport]; exact le_refl 5)
    · have hmem : .stop ∈ inputs := by
        rcases List.mem_append.1 hmem with hmem | hmem
        · exact hmem
        · exact absurd (List.mem_singleton.1 hmem).symm hi
      rcases h.permit hmem with hold | hrank
      · exact .inl (hpermit.trans hold)
      · have hless := (step_rank (h.stop hmem) hport).2
        exact .inr (by omega)

theorem Heeded.start : Heeded [] {} := ⟨.start, .start, nofun, nofun⟩

/-! ### The reactor goes on -/

/-- **The reactor can go on**: by itself, or with whatever the call of the device that it is in returns. -/
inductive Waker.GoesOn (w : Waker) : Prop
  | run (h : (waker.step w (.reactor .run)).isSome = true)
  | notified (h : (waker.step w (.reactor .notified)).isSome = true)
  | opening (h : ∀ result, (waker.step w (.reactor (.opened result))).isSome = true)
  | executing (h : ∀ result, (waker.step w (.reactor (.executed result))).isSome = true)
  | asking (h : ∀ result, (waker.step w (.reactor (.bytesToWrite result))).isSome = true)
  | draining (h : ∀ result, (waker.step w (.reactor (.drained result))).isSome = true)

theorem waker_isSome {i : Input} (hstop : i ≠ .stop) (hnotified : i ≠ .reactor .notified) (h : (w.port.step i).isSome = true) :
    (waker.step w i).isSome = true := by
  show (w.step i).isSome = true
  unfold Waker.step
  split
  · exact absurd rfl hstop
  · exact absurd rfl hnotified
  · rw [Option.isSome_map]
    exact h

theorem waker_reactor {i : ReactorInput} (hnotified : i ≠ .notified) (h : (w.port.stepReactor i).isSome = true) :
    (waker.step w (.reactor i)).isSome = true := by
  refine waker_isSome (fun heq => ?_) (fun heq => ?_) h
  · cases heq
  · cases heq
    exact hnotified rfl

theorem Heeded.goesOn {inputs : List Input} (h : Heeded inputs w) (hstop : .stop ∈ inputs) (hpc : w.port.reactor.pc ≠ .closed) :
    w.GoesOn := by
  have hset := h.stop hstop
  have hrun (hrun : (w.port.stepReactor .run).isSome = true) : w.GoesOn :=
    .run (waker_reactor (fun heq => by cases heq) hrun)
  cases hw : w.port.reactor.pc with
  | opening =>
    refine .opening fun result => waker_reactor (fun heq => by cases heq) ?_
    show (w.port.stepReactor _).isSome = true
    cases result <;> simp [NativePort.stepReactor, hw]
  | execute =>
    have hfits := h.fits.pc
    rw [Reactor.PcFits, hw] at hfits
    obtain ⟨command, rest, hcommands, -⟩ := hfits
    by_cases hdrain : command.operation = .drain
    · refine .asking fun result => waker_reactor (fun heq => by cases heq) ?_
      obtain ⟨id, operation⟩ := command
      subst hdrain
      show (w.port.stepReactor _).isSome = true
      cases result with
      | error error => simp [NativePort.stepReactor, hw, hcommands]
      | ok count =>
        simp only [NativePort.stepReactor, hw, hcommands]
        split <;> rfl
    · refine .executing fun result => waker_reactor (fun heq => by cases heq) ?_
      show (w.port.stepReactor _).isSome = true
      simp only [NativePort.stepReactor, hw, hcommands]
      split
      · rename_i heq
        cases heq
      · rename_i heq
        cases heq
        exact absurd rfl hdrain
      · cases result <;> rfl
  | draining =>
    have hfits := h.fits.pc
    rw [Reactor.PcFits, hw] at hfits
    obtain ⟨command, rest, hcommands, -⟩ := hfits
    refine .draining fun result => waker_reactor (fun heq => by cases heq) ?_
    show (w.port.stepReactor _).isSome = true
    simp only [NativePort.stepReactor, hw, hcommands]
    cases result <;> rfl
  | select =>
    -- the permit is still there
    have hpermit : w.permit = true := by
      rcases h.permit hstop with hpermit | hrank
      · exact hpermit
      · rw [hw] at hrank
        exact absurd hrank (show ¬10 ≤ 5 by decide)
    refine .notified ?_
    show (w.step (.reactor .notified)).isSome = true
    simp only [Waker.step, hpermit, if_true, Option.isSome_map]
    show (w.port.stepReactor .notified).isSome = true
    simp [NativePort.stepReactor, hw]
  | closed => exact absurd hw hpc
  | burst left first batch =>
    refine hrun ?_
    have hgoes : w.port.burstGoesOn left = false := by simp [NativePort.burstGoesOn, hset]
    simp [NativePort.stepReactor, hw, hgoes]
  | released result =>
    refine hrun ?_
    simp only [NativePort.stepReactor, hw]
    rw [send_eq]
    by_cases hroom : w.port.Room
    · rw [if_pos hroom]
      rfl
    · rw [if_neg hroom]
      rfl
  | filled length full =>
    refine hrun ?_
    simp only [NativePort.stepReactor, hw]
    split <;> rfl
  | _ =>
    refine hrun ?_
    simp [NativePort.stepReactor, hw, hset]

/-! ### Over a run -/

theorem Heeded.run {inputs : List Input} {outputs : List Output} (hrun : waker.run {} inputs = some (w, outputs)) :
    Heeded inputs w :=
  Machine.run_rule_all (fun inputs _ w => Heeded inputs w) .start (fun _ _ _ _ _ _ h hstep => h.step hstep) hrun

/-- The turns of a step, with the permit. -/
def Waker.turns (w : Waker) : Input → List ReactorInput := w.port.turns

/-- **A port that is told to stop comes to its end.**  Over every run of the native port, whatever calls are made, whatever
the device does and whenever `Control::stop` is called: from then on the reactor takes fifteen turns at most.  Until it is
closed, it can go on by itself or with whatever the call of the device that it is in returns; once it is, the device is
released and the channel of commands is closed. -/
theorem shutdown_bounded (before : List Input) (w : Waker) (out : List Output)
    (hrun : waker.run {} before = some (w, out)) (hstop : .stop ∈ before) (after : List Input) (w' : Waker)
    (out' : List Output) (hrun' : waker.run w after = some (w', out')) :
    (waker.collect Waker.turns w after).length + w'.port.reactor.pc.rank ≤ 15 ∧
      (w'.port.reactor.pc.rank ≠ 0 → w'.GoesOn) ∧
      (w'.port.reactor.pc.rank = 0 →
        w'.port.reactor.pc = .closed ∧ w'.port.session = false ∧ w'.port.receiving = false) := by
  have hbefore : Heeded before w := .run hrun
  have hafter : Heeded (before ++ after) w' := .run (Machine.run_append hrun hrun')
  have hstop' : .stop ∈ before ++ after := List.mem_append_left _ hstop
  refine ⟨?_, fun hrank => hafter.goesOn hstop' (mt Pc.rank_zero.2 hrank), fun hrank => ?_⟩
  · have hrank := Machine.run_rank (fun w : Waker => w.port.reactor.pc.rank) Waker.turns (fun w => w.port.stop = true)
      (fun w i w' out hstop hstep => step_rank hstop (waker_step hstep).1) (hbefore.stop hstop) hrun'
    exact hrank.2.trans (Pc.rank_le _)
  · have hpc := Pc.rank_zero.1 hrank
    exact ⟨hpc, hafter.freed.session (hpc ▸ rfl), hafter.freed.receiving hpc⟩

/-- A port that waits in the `select!`. -/
def idlePort : List Input :=
  [.reactor (.opened (.ok ())), .reactor .run, .reactor .run, .reactor .run]

/-- It is told to stop, and the device has nothing for it. -/
theorem shutdown_bounded_idle : ∃ w out w' out', waker.run {} (idlePort ++ [.stop]) = some (w, out) ∧
    w.port.reactor.pc.rank = 10 ∧ waker.run w [.reactor .notified, .reactor .run, .reactor .run, .reactor .run, .reactor .run,
      .reactor .run] = some (w', out') ∧ w'.port.reactor.pc = .closed ∧ w'.port.session = false := by
  obtain ⟨w, out, w', out', hrun, hrank, hrun', hzero⟩ : ∃ w out w' out', waker.run {} (idlePort ++ [.stop]) = some (w, out) ∧
      w.port.reactor.pc.rank = 10 ∧ waker.run w [.reactor .notified, .reactor .run, .reactor .run, .reactor .run,
        .reactor .run, .reactor .run] = some (w', out') ∧ w'.port.reactor.pc.rank = 0 := ⟨_, _, _, _, rfl, rfl, rfl, rfl⟩
  obtain ⟨-, -, hclosed⟩ := shutdown_bounded (idlePort ++ [.stop]) w out hrun (List.mem_append_right _ (List.mem_singleton_self _)) _
    w' out' hrun'
  exact ⟨w, out, w', out', hrun, hrank, hrun', (hclosed hzero).1, (hclosed hzero).2.1⟩

end NodeSerialport.Native
