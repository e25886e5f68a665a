import NodeSerialport.Lib.Machine
import Mathlib.Data.List.Count
import Mathlib.Data.List.Nodup
import Mathlib.Logic.Function.Basic
/-!
# The I/O workers

`acquire` (`src/workers.rs`) runs under the mutex of the pool; leases are dropped outside it, at any time.  A worker lives
as long as some `Arc` of it: a lease, a clone that `acquire` holds, or a lease whose count is already given back.

* `Workers` — the pool of `Weak`s, the counters, and who holds which worker;
* `AcquirePhase` — how far the `acquire` under the mutex is;
* `workers` — the machine: every atomic step of `acquire`, and the two of a dropped lease;
* `Workers.Safe` — the invariant, kept by every step (`safe_step`).
-/

namespace NodeSerialport.Native

open Lib (Machine)

/-- `MAX_WORKERS`. -/
def maxWorkers : ℕ := 4

inductive AcquireError where
  | poisoned | start
  deriving DecidableEq, Repr

/-- How far `acquire` is. -/
inductive AcquirePhase where
  /-- `pool.retain`: the entries it kept, and those it has not looked at. -/
  | retain (kept rest : List ℕ)
  /-- `min_by_key`: the next slot, and the least slot so far with the count that was read. -/
  | select (index : ℕ) (least : Option (ℕ × ℤ))
  /-- `take_if` on the least slot. -/
  | reuse (least : Option ℕ)
  /-- `Worker::start`. -/
  | start
  /-- `fetch_add` on the worker, which then is leased. -/
  | count (worker : ℕ)
  /-- The rest of `active` is dropped, then the mutex. -/
  | leave (result : Except AcquireError ℕ)
  deriving DecidableEq, Repr

/-- The `acquire` under the mutex: its array of clones. -/
structure Acquire where
  active : List (Option ℕ)
  activeCount : ℕ
  phase : AcquirePhase
  deriving DecidableEq, Repr

structure Workers where
  /-- `WORKERS`. -/
  pool : List ℕ := []
  /-- `ports` of each worker. -/
  ports : ℕ → ℤ := fun _ => 0
  leases : List ℕ := []
  /-- Leases that gave their count back, and still hold their `Arc`. -/
  releasing : List ℕ := []
  /-- The number of workers that were started. -/
  started : ℕ := 0
  call : Option Acquire := none
  poisoned : Bool := false

/-- `acquire` holds a clone of the worker. -/
def Acquire.Holds (c : Acquire) (w : ℕ) : Prop := some w ∈ c.active ∨ c.phase = .count w

instance (c : Acquire) (w : ℕ) : Decidable (c.Holds w) := inferInstanceAs (Decidable (_ ∨ _))

namespace Workers

/-- The strong count of a worker is not zero: `Weak::upgrade` succeeds. -/
def Alive (s : Workers) (w : ℕ) : Prop := w ∈ s.leases ∨ w ∈ s.releasing ∨ ∃ c ∈ s.call, c.Holds w

instance (s : Workers) (w : ℕ) : Decidable (s.Alive w) := inferInstanceAs (Decidable (_ ∨ _ ∨ ∃ c ∈ s.call, c.Holds w))

/-- The live workers. -/
def live (s : Workers) : List ℕ := (List.range s.started).filter fun w => s.Alive w

end Workers

inductive WorkersInput where
  /-- `acquire` takes the mutex. -/
  | lock
  /-- The next step of the `acquire` under the mutex. -/
  | advance
  /-- `Worker::start` returns. -/
  | started (ok : Bool)
  /-- A lease is dropped: `fetch_sub`. -/
  | release (worker : ℕ)
  /-- The `Arc` of such a lease is dropped. -/
  | free (worker : ℕ)
  deriving DecidableEq, Repr

inductive WorkersOutput where
  | returned (result : Except AcquireError ℕ)
  /-- An index out of bounds. -/
  | panicked

namespace Workers

/-- Of two slots with their counts, `min_by_key` keeps the first that is least. -/
def first : Option (ℕ × ℤ) → ℕ × ℤ → ℕ × ℤ
  | none, slot => slot
  | some least, slot => if slot.2 < least.2 then slot else least

/-- The next step of `acquire`; `Worker::start` is not one of its own. -/
def advance (limit : ℕ) (s : Workers) (c : Acquire) : Option (Workers × List WorkersOutput) :=
  match c.phase with
  | .retain kept [] => some ({ s with pool := kept, call := some { c with phase := .select 0 none } }, [])
  | .retain kept (w :: rest) =>
    if s.Alive w then
      if c.activeCount < c.active.length then
        let active := c.active.set c.activeCount (some w)
        some ({ s with call := some ⟨active, c.activeCount + 1, .retain (kept ++ [w]) rest⟩ }, [])
      else some ({ s with call := none, poisoned := true }, [.panicked])
    else some ({ s with call := some { c with phase := .retain kept rest } }, [])
  | .select index least =>
    match c.active[index]? with
    | none => some ({ s with call := some { c with phase := .reuse (least.map (·.1)) } }, [])
    | some none => some ({ s with call := some { c with phase := .select (index + 1) least } }, [])
    | some (some w) =>
      let least := first least (index, s.ports w)
      some ({ s with call := some { c with phase := .select (index + 1) (some least) } }, [])
  | .reuse none => some ({ s with call := some { c with phase := .start } }, [])
  | .reuse (some index) =>
    match c.active[index]? with
    | none => some ({ s with call := none, poisoned := true }, [.panicked])
    | some none => some ({ s with call := some { c with phase := .start } }, [])
    | some (some w) =>
      if s.ports w = 0 ∨ limit ≤ c.activeCount then
        some ({ s with call := some { c with active := c.active.set index none, phase := .count w } }, [])
      else some ({ s with call := some { c with phase := .start } }, [])
  | .start => none
  | .count w =>
    some ({ s with
      ports := Function.update s.ports w (s.ports w + 1)
      leases := w :: s.leases
      call := some { c with phase := .leave (.ok w) } }, [])
  | .leave result =>
    match c.active with
    | [] => some ({ s with call := none }, [.returned result])
    | _ :: active => some ({ s with call := some { c with active := active } }, [])

def step (limit : ℕ) (s : Workers) : WorkersInput → Option (Workers × List WorkersOutput)
  | .lock =>
    match s.call with
    | some _ => none
    | none =>
      if s.poisoned then some (s, [.returned (.error .poisoned)])
      else
        let call := { active := List.replicate maxWorkers none, activeCount := 0, phase := .retain [] s.pool }
        some ({ s with call := some call }, [])
  | .advance => s.call.bind (s.advance limit)
  | .started ok =>
    match s.call with
    | some ⟨active, activeCount, .start⟩ =>
      if ok then
        some ({ s with
          pool := s.pool ++ [s.started]
          ports := Function.update s.ports s.started 0
          started := s.started + 1
          call := some ⟨active, activeCount, .count s.started⟩ }, [])
      else some ({ s with call := some ⟨active, activeCount, .leave (.error .start)⟩ }, [])
    | _ => none
  | .release w =>
    if w ∈ s.leases then
      some ({ s with
        ports := Function.update s.ports w (s.ports w - 1)
        leases := s.leases.erase w
        releasing := w :: s.releasing }, [])
    else none
  | .free w => if w ∈ s.releasing then some ({ s with releasing := s.releasing.erase w }, []) else none

end Workers

/-- The pool, with this `LIMIT`. -/
def workers (limit : ℕ) : Machine Workers WorkersInput WorkersOutput := ⟨Workers.step limit⟩

/-! ### The invariant -/

/-- The first slots hold these workers, the others none. -/
structure Acquire.Filled (c : Acquire) (held : List ℕ) : Prop where
  active : c.active = held.map some ++ List.replicate (maxWorkers - held.length) none
  count : c.activeCount = held.length

theorem Acquire.Filled.mem {c : Acquire} {held : List ℕ} (h : c.Filled held) {w : ℕ} : some w ∈ c.active ↔ w ∈ held := by
  rw [h.active]
  simp

/-- **The next clone** is within the array, and goes behind the others. -/
theorem Acquire.Filled.push {c : Acquire} {held : List ℕ} (h : c.Filled held) (hroom : held.length < maxWorkers) (w : ℕ)
    (phase : AcquirePhase) : c.activeCount < c.active.length ∧
      Acquire.Filled ⟨c.active.set c.activeCount (some w), c.activeCount + 1, phase⟩ (held ++ [w]) := by
  obtain ⟨room, hroom'⟩ : ∃ room, maxWorkers - held.length = room + 1 := ⟨maxWorkers - held.length - 1, by omega⟩
  have hactive := h.active
  rw [hroom', List.replicate_succ] at hactive
  have hcount : c.activeCount = (held.map some).length := by rw [h.count, List.length_map]
  constructor
  · rw [hactive, hcount, List.length_append, List.length_cons]
    omega
  · constructor
    · show c.active.set c.activeCount (some w) = _
      rw [hactive, hcount, List.set_append_right _ _ le_rfl, Nat.sub_self, List.set_cons_zero, List.map_append,
        List.append_assoc, List.length_append, List.length_singleton]
      congr 3
      omega
    · show c.activeCount + 1 = _
      rw [h.count, List.length_append, List.length_singleton]

theorem Acquire.Filled.getElem? {c : Acquire} {held : List ℕ} (h : c.Filled held) {index : ℕ} (hindex : index < held.length) :
    c.active[index]? = some (some held[index]) := by
  rw [h.active, List.getElem?_append_left (by rwa [List.length_map]), List.getElem?_map, List.getElem?_eq_getElem hindex]
  rfl

theorem Acquire.Filled.le_of_none {c : Acquire} {held : List ℕ} (h : c.Filled held) {index : ℕ}
    (hslot : c.active[index]? = some none) : held.length ≤ index := by
  by_contra hlt
  rw [h.getElem? (Nat.lt_of_not_le hlt)] at hslot
  cases hslot

theorem Acquire.Filled.lt_of_some {c : Acquire} {held : List ℕ} (h : c.Filled held) {index w : ℕ}
    (hslot : c.active[index]? = some (some w)) : index < held.length := by
  by_contra hle
  rw [h.active, List.getElem?_append_right (by rw [List.length_map]; omega), List.getElem?_replicate] at hslot
  split at hslot <;> cases hslot

namespace Workers

variable {limit : ℕ} {s s' : Workers} {c c' : Acquire} {w : ℕ}

/-- Where an `acquire` is, and what it knows of the pool. -/
def At (limit : ℕ) (s : Workers) (c : Acquire) : Prop :=
  match c.phase with
  | .retain kept rest => c.Filled kept ∧ (kept ++ rest).Sublist s.pool ∧ ∀ w, s.Alive w → w ∈ kept ++ rest
  | .select index least =>
    c.Filled s.pool ∧ (least = none → index = 0 ∨ s.pool = []) ∧ ∀ entry, least = some entry → entry.1 < s.pool.length
  | .reuse least => c.Filled s.pool ∧ (least = none → s.pool = []) ∧ ∀ index, least = some index → index < s.pool.length
  | .start => s.pool.length < limit
  | .count _ | .leave _ => True

/-- **The invariant**: the pool has at most `limit` entries, and one for every live worker; a counter is the number of
leases; and no index was out of bounds. -/
structure Safe (limit : ℕ) (s : Workers) : Prop where
  bounded : s.pool.length ≤ limit
  nodup : s.pool.Nodup
  known : ∀ w ∈ s.pool, w < s.started
  pooled : ∀ w, s.Alive w → w ∈ s.pool
  counted : ∀ w, s.ports w = s.leases.count w
  healthy : s.poisoned = false
  at_call : ∀ c, s.call = some c → s.At limit c

theorem first_cases (least : Option (ℕ × ℤ)) (slot : ℕ × ℤ) : first least slot = slot ∨ least = some (first least slot) := by
  cases least with
  | none => exact .inl rfl
  | some least =>
    by_cases hlt : slot.2 < least.2
    · exact .inl (if_pos hlt)
    · exact .inr (congrArg some (if_neg hlt).symm)

theorem Alive.of_holds (hc : s.call = some c) (h : c.Holds w) : s.Alive w := .inr (.inr ⟨c, hc, h⟩)

theorem alive_of_call (h : s'.Alive w) (hleases : s'.leases = s.leases) (hreleasing : s'.releasing = s.releasing)
    (hcall : ∀ c', s'.call = some c' → c'.Holds w → s.Alive w) : s.Alive w := by
  rcases h with h | h | ⟨c', hc', h⟩
  · exact .inl (hleases ▸ h)
  · exact .inr (.inl (hreleasing ▸ h))
  · exact hcall c' hc' h

theorem Safe.initial (limit : ℕ) : Safe limit {} where
  bounded := Nat.zero_le _
  nodup := List.nodup_nil
  known := nofun
  pooled := by
    rintro w (h | h | ⟨c, hc, -⟩)
    · cases h
    · cases h
    · cases hc
  counted _ := rfl
  healthy := rfl
  at_call := nofun

theorem Safe.moves (h : s.Safe limit) (hheld : ∀ w, c'.Holds w → s.Alive w)
    (hat : At limit { s with call := some c' } c') : Safe limit { s with call := some c' } where
  bounded := h.bounded
  nodup := h.nodup
  known := h.known
  pooled w hw := by
    refine h.pooled w (alive_of_call hw rfl rfl ?_)
    rintro _ ⟨⟩ hv
    exact hheld w hv
  counted := h.counted
  healthy := h.healthy
  at_call := by
    rintro _ ⟨⟩
    exact hat

theorem alive_of_moves (hheld : ∀ w, c'.Holds w → s.Alive w) (h : Alive { s with call := some c' } w) : s.Alive w := by
  refine alive_of_call h rfl rfl ?_
  rintro _ ⟨⟩ hv
  exact hheld w hv

theorem holds_of_active (hc : s.call = some c) (hactive : c'.active = c.active) (hphase : ∀ v, c'.phase ≠ .count v) (w : ℕ)
    (h : c'.Holds w) : s.Alive w := by
  rcases h with h | h
  · exact .of_holds hc (.inl (hactive ▸ h))
  · exact absurd h (hphase w)

/-! ### The steps of `acquire` -/

theorem Safe.upgrade (hlimit : limit ≤ maxWorkers) (h : s.Safe limit) (hc : s.call = some c) {kept rest : List ℕ}
    (hphase : c.phase = .retain kept (w :: rest)) (hw : s.Alive w)
    (hc' : c' = ⟨c.active.set c.activeCount (some w), c.activeCount + 1, .retain (kept ++ [w]) rest⟩) :
    c.activeCount < c.active.length ∧ Safe limit { s with call := some c' } := by
  have hat := h.at_call c hc
  unfold At at hat
  rw [hphase] at hat
  obtain ⟨hfilled, hsub, halive⟩ := hat
  have hroom : kept.length < maxWorkers := by
    have hlength := hsub.length_le
    have hbounded := h.bounded
    rw [List.length_append, List.length_cons] at hlength
    omega
  obtain ⟨hindex, hfilled'⟩ := hfilled.push hroom w (.retain (kept ++ [w]) rest)
  rw [← hc'] at hfilled'
  have heq : kept ++ [w] ++ rest = kept ++ w :: rest := by rw [List.append_assoc, List.singleton_append]
  have hheld : ∀ v, c'.Holds v → s.Alive v := by
    rintro v (hv | hv)
    · rcases List.mem_append.1 (hfilled'.mem.1 hv) with hv | hv
      · exact .of_holds hc (.inl (hfilled.mem.2 hv))
      · rwa [List.mem_singleton.1 hv]
    · rw [hc'] at hv
      cases hv
  refine ⟨hindex, h.moves hheld ?_⟩
  unfold At
  rw [show c'.phase = .retain (kept ++ [w]) rest by rw [hc']]
  exact ⟨hfilled', by rwa [heq], fun v hv => heq ▸ halive v (alive_of_moves hheld hv)⟩

theorem Safe.discard (h : s.Safe limit) (hc : s.call = some c) {kept rest : List ℕ}
    (hphase : c.phase = .retain kept (w :: rest)) (hw : ¬ s.Alive w) :
    Safe limit { s with call := some { c with phase := .retain kept rest } } := by
  have hat := h.at_call c hc
  unfold At at hat
  rw [hphase] at hat
  obtain ⟨hfilled, hsub, halive⟩ := hat
  have hheld : ∀ v, Acquire.Holds { c with phase := .retain kept rest } v → s.Alive v := holds_of_active hc rfl nofun
  refine h.moves hheld ⟨⟨hfilled.active, hfilled.count⟩, ?_, fun v hv => ?_⟩
  · exact (List.Sublist.append_left (List.sublist_cons_self w rest) kept).trans hsub
  · -- what is dead stays dead
    have hv := alive_of_moves hheld hv
    have hmem := halive v hv
    rw [List.mem_append, List.mem_cons] at hmem
    rw [List.mem_append]
    rcases hmem with hmem | rfl | hmem
    · exact .inl hmem
    · exact absurd hv hw
    · exact .inr hmem

/-- **The pool** is left with the live workers. -/
theorem Safe.retained (h : s.Safe limit) (hc : s.call = some c) {kept : List ℕ} (hphase : c.phase = .retain kept []) :
    Safe limit { s with pool := kept, call := some { c with phase := .select 0 none } } := by
  have hat := h.at_call c hc
  unfold At at hat
  rw [hphase] at hat
  obtain ⟨hfilled, hsub, halive⟩ := hat
  rw [List.append_nil] at hsub halive
  have hheld : ∀ v, Acquire.Holds { c with phase := .select 0 none } v → s.Alive v := holds_of_active hc rfl nofun
  refine ⟨hsub.length_le.trans h.bounded, h.nodup.sublist hsub, fun v hv => h.known v (hsub.subset hv), ?_, h.counted,
    h.healthy, ?_⟩
  · intro v hv
    exact halive v (alive_of_call hv rfl rfl (by rintro _ ⟨⟩ hv; exact hheld v hv))
  · rintro _ ⟨⟩
    exact ⟨⟨hfilled.active, hfilled.count⟩, fun _ => .inl rfl, nofun⟩

theorem Safe.selects (h : s.Safe limit) (hc : s.call = some c) {index : ℕ} {least least' : Option (ℕ × ℤ)}
    (hphase : c.phase = .select index least) (hnone : least' = none → s.pool = [])
    (hsome : ∀ entry, least' = some entry → entry.1 = index ∧ index < s.pool.length ∨ least = some entry) :
    Safe limit { s with call := some { c with phase := .select (index + 1) least' } } := by
  have hat := h.at_call c hc
  unfold At at hat
  rw [hphase] at hat
  obtain ⟨hfilled, -, hleast⟩ := hat
  refine h.moves (holds_of_active hc rfl nofun) ⟨⟨hfilled.active, hfilled.count⟩, fun h => .inr (hnone h), ?_⟩
  intro entry hentry
  rcases hsome entry hentry with ⟨heq, hindex⟩ | hbefore
  · rwa [heq]
  · exact hleast entry hbefore

theorem Safe.selected (h : s.Safe limit) (hc : s.call = some c) {index : ℕ} {least : Option (ℕ × ℤ)}
    (hphase : c.phase = .select index least) (hend : c.active[index]? = none) :
    Safe limit { s with call := some { c with phase := .reuse (least.map (·.1)) } } := by
  have hat := h.at_call c hc
  unfold At at hat
  rw [hphase] at hat
  obtain ⟨hfilled, hnone, hleast⟩ := hat
  refine h.moves (holds_of_active hc rfl nofun) ⟨⟨hfilled.active, hfilled.count⟩, fun hmap => ?_, fun i hi => ?_⟩
  · refine (hnone (Option.map_eq_none_iff.1 hmap)).resolve_left ?_
    rintro rfl
    rw [List.getElem?_eq_none_iff, hfilled.active, List.length_append, List.length_map, List.length_replicate,
      maxWorkers] at hend
    omega
  · obtain ⟨entry, hentry, rfl⟩ := Option.map_eq_some_iff.1 hi
    exact hleast entry hentry

theorem Safe.taken (h : s.Safe limit) (hc : s.call = some c) {index : ℕ} (hmem : some w ∈ c.active) :
    Safe limit { s with call := some { c with active := c.active.set index none, phase := .count w } } := by
  refine h.moves ?_ trivial
  rintro v (hv | hv)
  · rcases List.mem_or_eq_of_mem_set hv with hv | hv
    · exact .of_holds hc (.inl hv)
    · cases hv
  · cases hv
    exact .of_holds hc (.inl hmem)

theorem Safe.starts (h : s.Safe limit) (hc : s.call = some c) (hroom : s.pool.length < limit) :
    Safe limit { s with call := some { c with phase := .start } } :=
  h.moves (holds_of_active hc rfl nofun) hroom

/-- **A new worker** has an entry of its own. -/
theorem Safe.started (h : s.Safe limit) (hc : s.call = some c) (hphase : c.phase = .start) :
    Safe limit { s with
      pool := s.pool ++ [s.started], ports := Function.update s.ports s.started 0, started := s.started + 1
      call := some { c with phase := .count s.started } } := by
  have hroom := h.at_call c hc
  unfold At at hroom
  rw [hphase] at hroom
  have hnew : s.started ∉ s.pool := fun hmem => Nat.lt_irrefl _ (h.known _ hmem)
  refine ⟨?_, ?_, fun w hw => ?_, fun w hw => ?_, fun w => ?_, h.healthy, ?_⟩
  · rw [List.length_append, List.length_singleton]
    exact hroom
  · rw [List.nodup_append]
    refine ⟨h.nodup, List.nodup_singleton _, fun a ha b hb => ?_⟩
    rintro rfl
    exact hnew (List.mem_singleton.1 hb ▸ ha)
  · rcases List.mem_append.1 hw with hw | hw
    · exact Nat.lt_succ_of_lt (h.known w hw)
    · rw [List.mem_singleton.1 hw]
      exact Nat.lt_succ_self _
  · rw [List.mem_append, List.mem_singleton]
    rcases hw with hw | hw | ⟨c', hc', hw⟩
    · exact .inl (h.pooled w (.inl hw))
    · exact .inl (h.pooled w (.inr (.inl hw)))
    · cases hc'
      rcases hw with hw | hw
      · exact .inl (h.pooled w (.of_holds hc (.inl hw)))
      · cases hw
        exact .inr rfl
  · show Function.update s.ports s.started 0 w = s.leases.count w
    by_cases hw : w = s.started
    · subst hw
      rw [Function.update_self, List.count_eq_zero_of_not_mem fun hmem => hnew (h.pooled _ (.inl hmem))]
      rfl
    · rw [Function.update_of_ne hw]
      exact h.counted w
  · rintro _ ⟨⟩
    exact trivial

theorem Safe.counts (h : s.Safe limit) (hc : s.call = some c) (hphase : c.phase = .count w) :
    Safe limit { s with
      ports := Function.update s.ports w (s.ports w + 1), leases := w :: s.leases
      call := some { c with phase := .leave (.ok w) } } := by
  have hheld : ∀ v, Acquire.Holds { c with phase := .leave (.ok w) } v → s.Alive v := holds_of_active hc rfl nofun
  refine ⟨h.bounded, h.nodup, h.known, fun v hv => ?_, fun v => ?_, h.healthy, ?_⟩
  · apply h.pooled v
    rcases hv with hv | hv | ⟨c', hc', hv⟩
    · rcases List.mem_cons.1 hv with rfl | hv
      · exact .of_holds hc (.inr hphase)
      · exact .inl hv
    · exact .inr (.inl hv)
    · cases hc'
      exact hheld v hv
  · show Function.update s.ports w (s.ports w + 1) v = ((w :: s.leases).count v : ℕ)
    by_cases hv : v = w
    · subst hv
      rw [Function.update_self, h.counted, List.count_cons_self]
      rfl
    · rw [Function.update_of_ne hv, h.counted, List.count_cons_of_ne (Ne.symm hv)]
  · rintro _ ⟨⟩
    exact trivial

theorem Safe.leaves (h : s.Safe limit) (hc : s.call = some c) {slot : Option ℕ} {active : List (Option ℕ)}
    (hactive : c.active = slot :: active) (result : Except AcquireError ℕ) :
    Safe limit { s with call := some ⟨active, c.activeCount, .leave result⟩ } := by
  refine h.moves ?_ trivial
  rintro v (hv | hv)
  · refine .of_holds hc (.inl ?_)
    rw [hactive]
    exact List.mem_cons_of_mem _ hv
  · cases hv

theorem Safe.left (h : s.Safe limit) : Safe limit { s with call := none } where
  bounded := h.bounded
  nodup := h.nodup
  known := h.known
  pooled w hw := h.pooled w (alive_of_call hw rfl rfl nofun)
  counted := h.counted
  healthy := h.healthy
  at_call := nofun

/-- **Every step of `acquire`** keeps the invariant, and none is out of bounds. -/
theorem safe_advance (hpos : 1 ≤ limit) (hlimit : limit ≤ maxWorkers) (h : s.Safe limit) (hc : s.call = some c)
    {out : List WorkersOutput} (hstep : s.advance limit c = some (s', out)) : s'.Safe limit ∧ .panicked ∉ out := by
  have hat := h.at_call c hc
  unfold At at hat
  unfold advance at hstep
  cases hphase : c.phase with
  | retain kept rest =>
    rw [hphase] at hstep
    cases rest with
    | nil =>
      cases hstep
      exact ⟨h.retained hc hphase, List.not_mem_nil⟩
    | cons w rest =>
      dsimp only at hstep
      by_cases hw : s.Alive w
      · obtain ⟨hindex, hsafe⟩ := h.upgrade hlimit hc hphase hw rfl
        rw [if_pos hw, if_pos hindex] at hstep
        cases hstep
        exact ⟨hsafe, List.not_mem_nil⟩
      · rw [if_neg hw] at hstep
        cases hstep
        exact ⟨h.discard hc hphase hw, List.not_mem_nil⟩
  | select index least =>
    rw [hphase] at hstep hat
    obtain ⟨hfilled, hnone, hleast⟩ := hat
    dsimp only at hstep
    split at hstep
    · rename_i hend
      cases hstep
      exact ⟨h.selected hc hphase hend, List.not_mem_nil⟩
    · rename_i hslot
      have hindex := hfilled.le_of_none hslot
      cases hstep
      refine ⟨h.selects hc hphase (fun hnil => ?_) fun entry hentry => .inr hentry, List.not_mem_nil⟩
      rcases hnone hnil with rfl | hempty
      · exact List.eq_nil_of_length_eq_zero (Nat.le_zero.1 hindex)
      · exact hempty
    · rename_i w hslot
      have hindex := hfilled.lt_of_some hslot
      cases hstep
      refine ⟨h.selects hc hphase nofun fun entry hentry => ?_, List.not_mem_nil⟩
      obtain rfl := Option.some.inj hentry
      refine (first_cases least (index, s.ports w)).imp_left fun heq => ?_
      rw [heq]
      exact ⟨rfl, hindex⟩
  | reuse least =>
    rw [hphase] at hstep hat
    obtain ⟨hfilled, hnone, hleast⟩ := hat
    cases least with
    | none =>
      cases hstep
      refine ⟨h.starts hc ?_, List.not_mem_nil⟩
      rw [hnone rfl]
      exact hpos
    | some index =>
      have hslot := hfilled.getElem? (hleast index rfl)
      dsimp only at hstep
      rw [hslot] at hstep
      dsimp only at hstep
      split at hstep
      · cases hstep
        exact ⟨h.taken hc (List.mem_of_getElem? hslot), List.not_mem_nil⟩
      · rename_i hbusy
        cases hstep
        refine ⟨h.starts hc ?_, List.not_mem_nil⟩
        rw [← hfilled.count]
        omega
  | start =>
    rw [hphase] at hstep
    cases hstep
  | count w =>
    rw [hphase] at hstep
    cases hstep
    exact ⟨h.counts hc hphase, List.not_mem_nil⟩
  | leave result =>
    rw [hphase] at hstep
    dsimp only at hstep
    split at hstep
    · cases hstep
      exact ⟨h.left, by simp⟩
    · rename_i hactive
      cases hstep
      exact ⟨h.leaves hc hactive result, List.not_mem_nil⟩

/-! ### The other steps -/

theorem At.mono (hpool : s'.pool = s.pool) (halive : ∀ w, s'.Alive w → s.Alive w) (h : At limit s c) : At limit s' c := by
  unfold At at h ⊢
  rw [hpool]
  split at h
  · exact ⟨h.1, h.2.1, fun w hw => h.2.2 w (halive w hw)⟩
  all_goals exact h

theorem Safe.released (h : s.Safe limit) (hw : w ∈ s.leases) : 1 ≤ s.ports w ∧
    Safe limit { s with
      ports := Function.update s.ports w (s.ports w - 1), leases := s.leases.erase w, releasing := w :: s.releasing } := by
  have hcount : 0 < s.leases.count w := List.count_pos_iff.2 hw
  have hports := h.counted w
  have halive : ∀ v, Alive { s with
      ports := Function.update s.ports w (s.ports w - 1), leases := s.leases.erase w, releasing := w :: s.releasing } v →
      s.Alive v := by
    rintro v (hv | hv | hv)
    · exact .inl (List.mem_of_mem_erase hv)
    · rcases List.mem_cons.1 hv with rfl | hv
      · exact .inl hw
      · exact .inr (.inl hv)
    · exact .inr (.inr hv)
  refine ⟨by omega, h.bounded, h.nodup, h.known, fun v hv => h.pooled v (halive v hv), fun v => ?_, h.healthy,
    fun c hc => At.mono (s := s) rfl halive (h.at_call c hc)⟩
  show Function.update s.ports w (s.ports w - 1) v = ((s.leases.erase w).count v : ℕ)
  by_cases hv : v = w
  · subst hv
    rw [Function.update_self, List.count_erase_self]
    omega
  · rw [Function.update_of_ne hv, h.counted, List.count_erase_of_ne hv]

theorem Safe.freed (h : s.Safe limit) (w : ℕ) : Safe limit { s with releasing := s.releasing.erase w } := by
  have halive : ∀ v, Alive { s with releasing := s.releasing.erase w } v → s.Alive v := by
    rintro v (hv | hv | hv)
    · exact .inl hv
    · exact .inr (.inl (List.mem_of_mem_erase hv))
    · exact .inr (.inr hv)
  exact ⟨h.bounded, h.nodup, h.known, fun v hv => h.pooled v (halive v hv), h.counted, h.healthy,
    fun c hc => At.mono (s := s) rfl halive (h.at_call c hc)⟩

theorem Safe.locked (h : s.Safe limit) :
    Safe limit { s with call := some ⟨List.replicate maxWorkers none, 0, .retain [] s.pool⟩ } := by
  have hheld : ∀ v, Acquire.Holds ⟨List.replicate maxWorkers none, 0, .retain [] s.pool⟩ v → s.Alive v := by
    rintro v (hv | hv)
    · exact absurd (List.eq_of_mem_replicate hv) nofun
    · cases hv
  refine h.moves hheld ⟨⟨rfl, rfl⟩, List.Sublist.refl _, fun v hv => ?_⟩
  exact h.pooled v (alive_of_moves hheld hv)

/-- **The step lemma.** -/
theorem safe_step (hpos : 1 ≤ limit) (hlimit : limit ≤ maxWorkers) (h : s.Safe limit) {i : WorkersInput}
    {out : List WorkersOutput} (hstep : s.step limit i = some (s', out)) : s'.Safe limit ∧ .panicked ∉ out := by
  cases i with
  | lock =>
    simp only [step] at hstep
    split at hstep
    · cases hstep
    · rw [if_neg (by rw [h.healthy]; exact Bool.false_ne_true)] at hstep
      cases hstep
      exact ⟨h.locked, List.not_mem_nil⟩
  | advance =>
    obtain ⟨c, hc, hadvance⟩ := Option.bind_eq_some_iff.1 hstep
    exact safe_advance hpos hlimit h hc hadvance
  | started ok =>
    simp only [step] at hstep
    split at hstep
    · rename_i active activeCount hc
      cases ok with
      | true =>
        cases hstep
        exact ⟨h.started hc rfl, List.not_mem_nil⟩
      | false =>
        cases hstep
        refine ⟨h.moves ?_ trivial, List.not_mem_nil⟩
        exact holds_of_active hc rfl nofun
    · cases hstep
  | release w =>
    simp only [step] at hstep
    split at hstep
    · rename_i hw
      cases hstep
      exact ⟨(h.released hw).2, List.not_mem_nil⟩
    · cases hstep
  | free w =>
    simp only [step] at hstep
    split at hstep
    · cases hstep
      exact ⟨h.freed w, List.not_mem_nil⟩
    · cases hstep

end Workers

end NodeSerialport.Native
