import NodeSerialport.Native.Workers
import Mathlib.Data.List.Perm.Subperm
/-!
# Which worker `acquire` leases

* `Chosen` — the choice, by the workers that were live and their counts when the mutex was taken;
* `Choosing` — the invariant of a call during which no lease is dropped, as it goes on (`choosing_advance`);
* `Returns` — such a call returns (`returns_call`);
* `worker_pool_balanced`: the pool is bounded and balanced over any run, and these are the choices it makes.
-/

namespace NodeSerialport.Native

open Lib (Machine)

namespace Workers

variable {limit : ℕ} {ok : Bool} {s₀ s s' : Workers} {c : Acquire} {w : ℕ} {result : Except AcquireError ℕ}

/-! ### Live workers -/

theorem mem_live : w ∈ s.live ↔ w < s.started ∧ s.Alive w := by simp [live]

theorem Safe.mem_live (h : s.Safe limit) : w ∈ s.live ↔ s.Alive w := by
  rw [Workers.mem_live]
  exact ⟨And.right, fun hw => ⟨h.known w (h.pooled w hw), hw⟩⟩

theorem nodup_live (s : Workers) : s.live.Nodup := List.Nodup.filter _ List.nodup_range

theorem Safe.live_perm (h : s.Safe limit) : s.live.Perm (s.pool.filter fun w => s.Alive w) := by
  rw [List.perm_ext_iff_of_nodup s.nodup_live (h.nodup.filter _)]
  intro w
  rw [h.mem_live, List.mem_filter, decide_eq_true_iff]
  exact ⟨fun hw => ⟨h.pooled w hw, hw⟩, And.right⟩

theorem Safe.live_length (h : s.Safe limit) : s.live.length ≤ limit := by
  rw [h.live_perm.length_eq]
  exact (List.length_filter_le _ _).trans h.bounded

/-! ### The choice -/

/-- The worker a call leases where no lease is dropped meanwhile, and a start fails unless `ok`. -/
structure Chosen (limit : ℕ) (s : Workers) (ok : Bool) (result : Except AcquireError ℕ) : Prop where
  /-- An idle worker, if there is one. -/
  idle : (∃ w, s.Alive w ∧ s.ports w = 0) → ∃ w, result = .ok w ∧ s.Alive w ∧ s.ports w = 0
  /-- Else a new one, below the limit. -/
  fresh : (∀ w, s.Alive w → s.ports w ≠ 0) → s.live.length < limit →
    result = if ok then .ok s.started else .error .start
  /-- Else one of those with the fewest leases. -/
  busy : (∀ w, s.Alive w → s.ports w ≠ 0) → limit ≤ s.live.length →
    ∃ w, result = .ok w ∧ s.Alive w ∧ ∀ v, s.Alive v → s.ports w ≤ s.ports v

/-- The live workers of the pool. -/
def candidates (s : Workers) : List ℕ := s.pool.filter fun w => s.Alive w

theorem Safe.mem_candidates (h : s.Safe limit) : w ∈ s.candidates ↔ s.Alive w := by
  unfold candidates
  rw [List.mem_filter, decide_eq_true_iff]
  exact ⟨And.right, fun hw => ⟨h.pooled w hw, hw⟩⟩

/-- Nothing but the call and the pool has changed. -/
structure Same (s₀ s : Workers) : Prop where
  ports : s.ports = s₀.ports
  leases : s.leases = s₀.leases
  releasing : s.releasing = s₀.releasing
  started : s.started = s₀.started

theorem Same.moves (h : Same s₀ s) (pool : List ℕ) (call : Option Acquire) :
    Same s₀ { s with pool := pool, call := call } := ⟨h.ports, h.leases, h.releasing, h.started⟩

/-- What a call knows of the state it started from. -/
def Choosing (limit : ℕ) (ok : Bool) (s₀ s : Workers) (c : Acquire) : Prop :=
  match c.phase with
  | .retain kept rest => Same s₀ s ∧ ∃ seen, s₀.pool = seen ++ rest ∧ kept = seen.filter fun w => s₀.Alive w
  | .select index least =>
    Same s₀ s ∧ s.pool = s₀.candidates ∧ ∀ i count, least = some (i, count) → ∃ h : i < s₀.candidates.length,
      count = s₀.ports s₀.candidates[i] ∧ ∀ w ∈ s₀.candidates.take index, count ≤ s₀.ports w
  | .reuse least =>
    Same s₀ s ∧ s.pool = s₀.candidates ∧ ∀ i, least = some i → ∃ h : i < s₀.candidates.length,
      ∀ w ∈ s₀.candidates, s₀.ports s₀.candidates[i] ≤ s₀.ports w
  | .start => Same s₀ s ∧ (∀ w ∈ s₀.candidates, s₀.ports w ≠ 0) ∧ s₀.candidates.length < limit
  | .count w => Chosen limit s₀ ok (.ok w)
  | .leave result => Chosen limit s₀ ok result

theorem Same.alive_iff (h : Same s₀ s) (hidle : s₀.call = none) (hc : s.call = some c)
    (hheld : ∀ w, c.Holds w → s₀.Alive w) : s.Alive w ↔ s₀.Alive w := by
  constructor
  · rintro (hw | hw | ⟨c', hc', hw⟩)
    · exact .inl (h.leases ▸ hw)
    · exact .inr (.inl (h.releasing ▸ hw))
    · cases hc.symm.trans hc'
      exact hheld w hw
  · rintro (hw | hw | ⟨c', hc', -⟩)
    · exact .inl (h.leases.symm ▸ hw)
    · exact .inr (.inl (h.releasing.symm ▸ hw))
    · rw [hidle] at hc'
      cases hc'

theorem Safe.ports_nonneg (h : s.Safe limit) (w : ℕ) : 0 ≤ s.ports w := by
  rw [h.counted]
  exact Int.natCast_nonneg _

theorem chosen_least (h : s.Safe limit) (hw : w ∈ s.candidates) (hleast : ∀ v ∈ s.candidates, s.ports w ≤ s.ports v)
    (htaken : s.ports w = 0 ∨ limit ≤ s.candidates.length) : Chosen limit s ok (.ok w) := by
  have halive := h.mem_candidates.1 hw
  have hnonneg := h.ports_nonneg w
  refine ⟨?_, fun hbusy hroom => ?_, fun _ _ => ?_⟩
  · rintro ⟨v, hv, hzero⟩
    have hle := hleast v (h.mem_candidates.2 hv)
    exact ⟨w, rfl, halive, by omega⟩
  · rw [h.live_perm.length_eq] at hroom
    rcases htaken with hzero | hfull
    · exact absurd hzero (hbusy w halive)
    · exact absurd hroom (Nat.not_lt.2 hfull)
  · exact ⟨w, rfl, halive, fun v hv => hleast v (h.mem_candidates.2 hv)⟩

variable (ok) in
theorem chosen_start (h : s.Safe limit) (hbusy : ∀ w ∈ s.candidates, s.ports w ≠ 0) (hroom : s.candidates.length < limit) :
    Chosen limit s ok (if ok then .ok s.started else .error .start) := by
  refine ⟨?_, fun _ _ => rfl, fun _ hfull => ?_⟩
  · rintro ⟨w, hw, hzero⟩
    exact absurd hzero (hbusy w (h.mem_candidates.2 hw))
  · rw [h.live_perm.length_eq] at hfull
    exact absurd hroom (Nat.not_lt.2 hfull)

/-- How a call goes on: it has a next state, or it has returned. -/
def Goes (limit : ℕ) (ok : Bool) (s₀ s' : Workers) (out : List WorkersOutput) : Prop :=
  (out = [] ∧ ∃ c', s'.call = some c' ∧ Choosing limit ok s₀ s' c') ∨
    (s'.call = none ∧ ∃ result, out = [.returned result] ∧ Chosen limit s₀ ok result)

theorem choosing_retain (hidle : s₀.call = none) (hs : s.Safe limit) (hc : s.call = some c) {kept rest : List ℕ}
    (hphase : c.phase = .retain kept (w :: rest)) (h : Choosing limit ok s₀ s c) :
    (s.Alive w → ∀ c', c'.phase = .retain (kept ++ [w]) rest → Choosing limit ok s₀ { s with call := some c' } c') ∧
      (¬ s.Alive w → ∀ c', c'.phase = .retain kept rest → Choosing limit ok s₀ { s with call := some c' } c') := by
  have hat := hs.at_call c hc
  unfold At at hat
  unfold Choosing at h
  rw [hphase] at hat h
  obtain ⟨hsame, seen, hpool, hkept⟩ := h
  have halive : s.Alive w ↔ s₀.Alive w := by
    refine hsame.alive_iff hidle hc fun v hv => ?_
    rcases hv with hv | hv
    · have hmem := hat.1.mem.1 hv
      rw [hkept, List.mem_filter, decide_eq_true_iff] at hmem
      exact hmem.2
    · rw [hphase] at hv
      cases hv
  have hpool' : s₀.pool = seen ++ [w] ++ rest := by rw [hpool, List.append_assoc, List.singleton_append]
  constructor
  · intro hw c' hc'
    unfold Choosing
    rw [hc']
    refine ⟨hsame.moves _ _, seen ++ [w], hpool', ?_⟩
    rw [hkept, List.filter_append, List.filter_singleton, decide_eq_true (halive.1 hw)]
    rfl
  · intro hw c' hc'
    unfold Choosing
    rw [hc']
    refine ⟨hsame.moves _ _, seen ++ [w], hpool', ?_⟩
    rw [hkept, List.filter_append, List.filter_singleton, decide_eq_false fun h => hw (halive.2 h)]
    exact (List.append_nil _).symm

/-- **A slot is read**: what is least so far stays so. -/
theorem choosing_select (hs : s.Safe limit) (hc : s.call = some c) {index : ℕ} {least : Option (ℕ × ℤ)}
    (hphase : c.phase = .select index least) (h : Choosing limit ok s₀ s c) (hslot : c.active[index]? = some (some w))
    (hc' : c'.phase = .select (index + 1) (some (first least (index, s.ports w)))) :
    Choosing limit ok s₀ { s with call := some c' } c' := by
  have hat := hs.at_call c hc
  unfold At at hat
  unfold Choosing at h
  rw [hphase] at hat h
  obtain ⟨hfilled, hnone, -⟩ := hat
  obtain ⟨hsame, hpool, hbest⟩ := h
  rw [hpool] at hfilled hnone
  have hindex := hfilled.lt_of_some hslot
  obtain rfl : s₀.candidates[index] = w := by
    rw [hfilled.getElem? hindex] at hslot
    exact Option.some.inj (Option.some.inj hslot)
  have htake : s₀.candidates.take (index + 1) = s₀.candidates.take index ++ [s₀.candidates[index]] :=
    List.take_succ_eq_append_getElem hindex
  unfold Choosing
  rw [hc']
  refine ⟨hsame.moves _ _, hpool, fun i count hi => ?_⟩
  have hfirst := Option.some.inj hi
  rw [hsame.ports] at hfirst
  rw [htake]
  cases least with
  | none =>
    obtain ⟨rfl, rfl⟩ := Prod.mk.inj hfirst
    have hzero : index = 0 := (hnone rfl).resolve_right (List.ne_nil_of_length_pos (by omega))
    subst hzero
    refine ⟨hindex, rfl, fun v hv => ?_⟩
    rw [List.take_zero, List.nil_append, List.mem_singleton] at hv
    exact Int.le_of_eq (congrArg s₀.ports hv.symm)
  | some entry =>
    obtain ⟨j, best⟩ := entry
    obtain ⟨hj, hbest, hmin⟩ := hbest j best rfl
    unfold first at hfirst
    dsimp only at hfirst
    by_cases hlt : s₀.ports s₀.candidates[index] < best
    · rw [if_pos hlt] at hfirst
      obtain ⟨rfl, rfl⟩ := Prod.mk.inj hfirst
      refine ⟨hindex, rfl, fun v hv => ?_⟩
      rcases List.mem_append.1 hv with hv | hv
      · have hle := hmin v hv
        omega
      · exact Int.le_of_eq (congrArg s₀.ports (List.mem_singleton.1 hv).symm)
    · rw [if_neg hlt] at hfirst
      obtain ⟨rfl, rfl⟩ := Prod.mk.inj hfirst
      refine ⟨hj, hbest, fun v hv => ?_⟩
      rcases List.mem_append.1 hv with hv | hv
      · exact hmin v hv
      · rw [List.mem_singleton.1 hv]
        omega

/-- An empty slot, or the end of the array, is behind all candidates. -/
theorem choosing_selected (hs : s.Safe limit) (hc : s.call = some c) {index : ℕ} {least : Option (ℕ × ℤ)}
    (hphase : c.phase = .select index least) (h : Choosing limit ok s₀ s c) (hslot : ∀ w, c.active[index]? ≠ some (some w)) :
    Same s₀ s ∧ s.pool = s₀.candidates ∧ s₀.candidates.length ≤ index ∧ ∀ i count, least = some (i, count) →
      ∃ h : i < s₀.candidates.length, count = s₀.ports s₀.candidates[i] ∧ ∀ w ∈ s₀.candidates, count ≤ s₀.ports w := by
  have hat := hs.at_call c hc
  unfold At at hat
  unfold Choosing at h
  rw [hphase] at hat h
  obtain ⟨hfilled, -, -⟩ := hat
  obtain ⟨hsame, hpool, hbest⟩ := h
  rw [hpool] at hfilled
  have hindex : s₀.candidates.length ≤ index := by
    by_contra hlt
    exact hslot _ (hfilled.getElem? (Nat.lt_of_not_le hlt))
  refine ⟨hsame, hpool, hindex, fun i count hi => ?_⟩
  obtain ⟨hj, hcount, hmin⟩ := hbest i count hi
  rw [List.take_of_length_le hindex] at hmin
  exact ⟨hj, hcount, hmin⟩

/-- **The least slot** is taken, or a worker is to be started. -/
theorem choosing_reuse (h₀ : s₀.Safe limit) (hs : s.Safe limit) (hc : s.call = some c) {index : ℕ}
    (hphase : c.phase = .reuse (some index)) (h : Choosing limit ok s₀ s c) (hslot : c.active[index]? = some (some w)) :
    (s.ports w = 0 ∨ limit ≤ c.activeCount → Chosen limit s₀ ok (.ok w)) ∧
      (¬ (s.ports w = 0 ∨ limit ≤ c.activeCount) → ∀ c', c'.phase = .start →
        Choosing limit ok s₀ { s with call := some c' } c') := by
  have hat := hs.at_call c hc
  unfold At at hat
  unfold Choosing at h
  rw [hphase] at hat h
  obtain ⟨hfilled, -, -⟩ := hat
  obtain ⟨hsame, hpool, hleast⟩ := h
  rw [hpool] at hfilled
  obtain ⟨hindex, hmin⟩ := hleast index rfl
  obtain rfl : s₀.candidates[index] = w := by
    rw [hfilled.getElem? hindex] at hslot
    exact Option.some.inj (Option.some.inj hslot)
  rw [congrFun hsame.ports, hfilled.count]
  refine ⟨chosen_least h₀ (List.getElem_mem hindex) hmin, fun hno c' hc' => ?_⟩
  unfold Choosing
  rw [hc']
  refine ⟨hsame.moves _ _, fun v hv hzero => hno (.inl ?_), by omega⟩
  have hle := hmin v hv
  have hnonneg := h₀.ports_nonneg s₀.candidates[index]
  omega

/-- **A step of the call** goes on with it. -/
theorem goes_advance (h₀ : s₀.Safe limit) (hidle : s₀.call = none) (hlimit : limit ≤ maxWorkers) (hpos : 1 ≤ limit)
    (hs : s.Safe limit) (hc : s.call = some c) (h : Choosing limit ok s₀ s c) {out : List WorkersOutput}
    (hstep : s.advance limit c = some (s', out)) : Goes limit ok s₀ s' out := by
  have hat := hs.at_call c hc
  unfold At at hat
  unfold advance at hstep
  cases hphase : c.phase with
  | retain kept rest =>
    rw [hphase] at hstep
    cases rest with
    | nil =>
      cases hstep
      unfold Choosing at h
      rw [hphase] at h
      obtain ⟨hsame, seen, hpool, hkept⟩ := h
      rw [List.append_nil] at hpool
      refine .inl ⟨rfl, _, rfl, hsame.moves _ _, ?_, nofun⟩
      show kept = s₀.candidates
      rw [hkept, ← hpool]
      rfl
    | cons w rest =>
      obtain ⟨halive, hdead⟩ := choosing_retain hidle hs hc hphase h
      dsimp only at hstep
      by_cases hw : s.Alive w
      · rw [if_pos hw, if_pos (hs.upgrade hlimit hc hphase hw rfl).1] at hstep
        cases hstep
        exact .inl ⟨rfl, _, rfl, halive hw _ rfl⟩
      · rw [if_neg hw] at hstep
        cases hstep
        exact .inl ⟨rfl, _, rfl, hdead hw _ rfl⟩
  | select index least =>
    rw [hphase] at hstep
    dsimp only at hstep
    split at hstep
    · rename_i hend
      obtain ⟨hsame, hpool, -, hleast⟩ := choosing_selected hs hc hphase h (by rw [hend]; nofun)
      cases hstep
      refine .inl ⟨rfl, _, rfl, hsame.moves _ _, hpool, fun i hi => ?_⟩
      obtain ⟨⟨j, count⟩, hentry, rfl⟩ := Option.map_eq_some_iff.1 hi
      obtain ⟨hj, rfl, hmin⟩ := hleast j count hentry
      exact ⟨hj, hmin⟩
    · rename_i hslot
      obtain ⟨hsame, hpool, hindex, hleast⟩ := choosing_selected hs hc hphase h (by rw [hslot]; nofun)
      cases hstep
      refine .inl ⟨rfl, _, rfl, hsame.moves _ _, hpool, fun i count hi => ?_⟩
      rw [List.take_of_length_le (by omega)]
      exact hleast i count hi
    · rename_i w hslot
      cases hstep
      exact .inl ⟨rfl, _, rfl, choosing_select hs hc hphase h hslot rfl⟩
  | reuse least =>
    rw [hphase] at hstep hat
    cases least with
    | none =>
      cases hstep
      unfold Choosing at h
      rw [hphase] at h
      obtain ⟨hsame, hpool, -⟩ := h
      have hempty : s₀.candidates = [] := hpool.symm.trans (hat.2.1 rfl)
      refine .inl ⟨rfl, _, rfl, hsame.moves _ _, ?_, ?_⟩
      · rw [hempty]
        nofun
      · rw [hempty]
        exact hpos
    | some index =>
      have hslot := hat.1.getElem? (hat.2.2 index rfl)
      obtain ⟨htaken, hstarts⟩ := choosing_reuse h₀ hs hc hphase h hslot
      dsimp only at hstep
      rw [hslot] at hstep
      dsimp only at hstep
      split at hstep
      · rename_i hreuse
        cases hstep
        exact .inl ⟨rfl, _, rfl, htaken hreuse⟩
      · rename_i hbusy
        cases hstep
        exact .inl ⟨rfl, _, rfl, hstarts hbusy _ rfl⟩
  | start =>
    rw [hphase] at hstep
    cases hstep
  | count w =>
    unfold Choosing at h
    rw [hphase] at hstep h
    cases hstep
    exact .inl ⟨rfl, _, rfl, h⟩
  | leave result =>
    unfold Choosing at h
    rw [hphase] at hstep h
    dsimp only at hstep
    split at hstep
    · cases hstep
      exact .inr ⟨rfl, result, rfl, h⟩
    · cases hstep
      exact .inl ⟨rfl, _, rfl, h⟩

theorem goes_started (h₀ : s₀.Safe limit) (hc : s.call = some c) (h : Choosing limit ok s₀ s c)
    {out : List WorkersOutput} (hstep : s.step limit (.started ok) = some (s', out)) : Goes limit ok s₀ s' out := by
  simp only [step] at hstep
  split at hstep
  · rename_i active activeCount hstart
    cases hc.symm.trans hstart
    obtain ⟨hsame, hbusy, hroom⟩ := h
    have hchosen := chosen_start ok h₀ hbusy hroom
    rw [← hsame.started] at hchosen
    cases ok with
    | true =>
      cases hstep
      exact .inl ⟨rfl, _, rfl, hchosen⟩
    | false =>
      cases hstep
      exact .inl ⟨rfl, _, rfl, hchosen⟩
  · cases hstep

theorem failed_start {out : List WorkersOutput} (hstep : s.step limit (.started false) = some (s', out)) :
    s'.pool = s.pool ∧ s'.live = s.live := by
  simp only [step] at hstep
  split at hstep
  · rename_i active activeCount hc
    cases hstep
    refine ⟨rfl, List.filter_congr fun w _ => ?_⟩
    rw [decide_eq_decide]
    constructor
    · exact alive_of_moves (holds_of_active hc rfl fun v hno => by cases hno)
    · rintro (hw | hw | ⟨c, hc', hw⟩)
      · exact .inl hw
      · exact .inr (.inl hw)
      · cases hc.symm.trans hc'
        rcases hw with hw | hw
        · exact .inr (.inr ⟨_, rfl, .inl hw⟩)
        · cases hw
  · cases hstep

/-- The inputs of one call, once it has the mutex, while no lease is dropped. -/
def Alone (ok : Bool) (inputs : List WorkersInput) : Prop := ∀ i ∈ inputs, i = .advance ∨ i = .started ok

/-- **What a call alone returns.** -/
theorem chosen_run (h₀ : s₀.Safe limit) (hidle : s₀.call = none) (hlimit : limit ≤ maxWorkers) (hpos : 1 ≤ limit)
    {inputs : List WorkersInput} (halone : Alone ok inputs) (hs : s.Safe limit) (hc : s.call = some c)
    (h : Choosing limit ok s₀ s c) {outputs : List WorkersOutput}
    (hrun : (workers limit).run s inputs = some (s', outputs)) (hreturned : .returned result ∈ outputs) :
    Chosen limit s₀ ok result := by
  induction inputs generalizing s c outputs with
  | nil =>
    cases hrun
    cases hreturned
  | cons i inputs ih =>
    obtain ⟨s₁, out, rest, hstep, hrest, rfl⟩ := Machine.run_cons_inv hrun
    have hsafe := (safe_step hpos hlimit hs hstep).1
    have hgoes : Goes limit ok s₀ s₁ out := by
      rcases halone i List.mem_cons_self with rfl | rfl
      · obtain ⟨c', hc', hadvance⟩ := Option.bind_eq_some_iff.1 (show s.call.bind (s.advance limit) = _ from hstep)
        cases hc.symm.trans hc'
        exact goes_advance h₀ hidle hlimit hpos hs hc h hadvance
      · exact goes_started h₀ hc h hstep
    have halone' : Alone ok inputs := fun j hj => halone j (List.mem_cons_of_mem _ hj)
    rcases hgoes with ⟨rfl, c', hc', h'⟩ | ⟨hnone, result', rfl, hchosen⟩
    · exact ih halone' hsafe hc' h' hrest hreturned
    · -- without a call there is no other step
      have hover : rest = [] := by
        cases inputs with
        | nil =>
          cases hrest
          rfl
        | cons j inputs =>
          obtain ⟨s₂, out₂, rest₂, hstep₂, -⟩ := Machine.run_cons_inv hrest
          rcases halone' j List.mem_cons_self with rfl | rfl
          · change s₁.call.bind (s₁.advance limit) = _ at hstep₂
            rw [hnone] at hstep₂
            cases hstep₂
          · simp only [workers, step, hnone] at hstep₂
            cases hstep₂
      rw [hover, List.append_nil, List.mem_singleton] at hreturned
      cases hreturned
      exact hchosen

/-! ### A call returns -/

/-- A call alone returns from here. -/
def Returns (limit : ℕ) (ok : Bool) (s : Workers) : Prop :=
  ∃ inputs s' outputs result, Alone ok inputs ∧ (workers limit).run s inputs = some (s', outputs) ∧
    .returned result ∈ outputs

theorem Returns.of_step {i : WorkersInput} {out : List WorkersOutput} (h : s'.Returns limit ok)
    (hi : i = .advance ∨ i = .started ok) (hstep : s.step limit i = some (s', out)) : s.Returns limit ok := by
  obtain ⟨inputs, s₂, outputs, result, halone, hrun, hreturned⟩ := h
  refine ⟨i :: inputs, s₂, out ++ outputs, result, ?_, Machine.run_cons hstep hrun, List.mem_append_right _ hreturned⟩
  intro j hj
  rcases List.mem_cons.1 hj with rfl | hj
  · exact hi
  · exact halone j hj

theorem Returns.of_advance {out : List WorkersOutput} (h : s'.Returns limit ok) (hc : s.call = some c)
    (hstep : s.advance limit c = some (s', out)) : s.Returns limit ok :=
  h.of_step (.inl rfl) (by rw [step, hc, Option.bind_some, hstep])

theorem returns_leave {active : List (Option ℕ)} {activeCount : ℕ}
    (hc : s.call = some ⟨active, activeCount, .leave result⟩) : s.Returns limit ok := by
  induction active generalizing s with
  | nil =>
    have hstep : (workers limit).step s .advance = some ({ s with call := none }, [.returned result]) := by
      show s.call.bind (s.advance limit) = _
      rw [hc]
      rfl
    exact ⟨[.advance], _, _, result, fun i hi => .inl (List.mem_singleton.1 hi), Machine.run_singleton hstep,
      List.mem_singleton_self _⟩
  | cons slot active ih => exact (ih rfl).of_advance hc rfl

theorem returns_count {active : List (Option ℕ)} {activeCount : ℕ}
    (hc : s.call = some ⟨active, activeCount, .count w⟩) : s.Returns limit ok :=
  Returns.of_advance (returns_leave rfl) hc rfl

theorem returns_start {active : List (Option ℕ)} {activeCount : ℕ} (hc : s.call = some ⟨active, activeCount, .start⟩) :
    s.Returns limit ok := by
  cases ok with
  | true => exact Returns.of_step (returns_count rfl) (.inr rfl) (by simp only [step, hc]; rfl)
  | false => exact Returns.of_step (returns_leave rfl) (.inr rfl) (by simp only [step, hc]; rfl)

theorem returns_reuse (hs : s.Safe limit) {active : List (Option ℕ)} {activeCount : ℕ} {least : Option ℕ}
    (hc : s.call = some ⟨active, activeCount, .reuse least⟩) : s.Returns limit ok := by
  cases least with
  | none => exact Returns.of_advance (returns_start rfl) hc rfl
  | some index =>
    obtain ⟨hfilled, -, hleast⟩ := hs.at_call _ hc
    obtain ⟨w, hslot⟩ : ∃ w, active[index]? = some (some w) := ⟨_, hfilled.getElem? (hleast index rfl)⟩
    by_cases hreuse : s.ports w = 0 ∨ limit ≤ activeCount
    · have hstep : s.advance limit ⟨active, activeCount, .reuse (some index)⟩ =
          some ({ s with call := some ⟨active.set index none, activeCount, .count w⟩ }, []) := by
        simp only [advance, hslot, if_pos hreuse]
      exact Returns.of_advance (returns_count rfl) hc hstep
    · have hstep : s.advance limit ⟨active, activeCount, .reuse (some index)⟩ =
          some ({ s with call := some ⟨active, activeCount, .start⟩ }, []) := by
        simp only [advance, hslot, if_neg hreuse]
      exact Returns.of_advance (returns_start rfl) hc hstep

theorem returns_select (hpos : 1 ≤ limit) (hlimit : limit ≤ maxWorkers) (hs : s.Safe limit) {active : List (Option ℕ)}
    {activeCount index : ℕ} {least : Option (ℕ × ℤ)} (hc : s.call = some ⟨active, activeCount, .select index least⟩) :
    s.Returns limit ok := by
  induction hleft : active.length - index using Nat.strong_induction_on generalizing s index least with
  | _ left ih =>
    have hsafe {s' : Workers} (hstep : s.advance limit ⟨active, activeCount, .select index least⟩ = some (s', [])) :
        s'.Safe limit := (safe_advance hpos hlimit hs hc hstep).1
    cases hslot : active[index]? with
    | none =>
      have hstep : s.advance limit ⟨active, activeCount, .select index least⟩ =
          some ({ s with call := some ⟨active, activeCount, .reuse (least.map (·.1))⟩ }, []) := by
        simp only [advance, hslot]
      exact Returns.of_advance (returns_reuse (hsafe hstep) rfl) hc hstep
    | some slot =>
      have hindex : index < active.length := (List.getElem?_eq_some_iff.1 hslot).1
      obtain ⟨least', hstep⟩ : ∃ least', s.advance limit ⟨active, activeCount, .select index least⟩ =
          some ({ s with call := some ⟨active, activeCount, .select (index + 1) least'⟩ }, []) := by
        cases slot with
        | none => exact ⟨least, by simp only [advance, hslot]⟩
        | some w => exact ⟨some (first least (index, s.ports w)), by simp only [advance, hslot]⟩
      exact Returns.of_advance (ih _ (by omega) (hsafe hstep) rfl rfl) hc hstep

variable (ok) in
theorem returns_retain (hpos : 1 ≤ limit) (hlimit : limit ≤ maxWorkers) (hs : s.Safe limit) {active : List (Option ℕ)}
    {activeCount : ℕ} {kept rest : List ℕ} (hc : s.call = some ⟨active, activeCount, .retain kept rest⟩) :
    s.Returns limit ok := by
  induction rest generalizing s active activeCount kept with
  | nil => exact Returns.of_advance (returns_select hpos hlimit (hs.retained hc rfl) rfl) hc rfl
  | cons w rest ih =>
    by_cases hw : s.Alive w
    · obtain ⟨hindex, hsafe⟩ := hs.upgrade hlimit hc rfl hw rfl
      have hstep : s.advance limit ⟨active, activeCount, .retain kept (w :: rest)⟩ = some ({ s with
          call := some ⟨active.set activeCount (some w), activeCount + 1, .retain (kept ++ [w]) rest⟩ }, []) := by
        simp only [advance, if_pos hw]
        exact if_pos hindex
      exact Returns.of_advance (ih hsafe rfl) hc hstep
    · have hstep : s.advance limit ⟨active, activeCount, .retain kept (w :: rest)⟩ =
          some ({ s with call := some ⟨active, activeCount, .retain kept rest⟩ }, []) := by
        simp only [advance, if_neg hw]
      exact Returns.of_advance (ih (hs.discard hc rfl hw) rfl) hc hstep

end Workers

/-- **The I/O worker pool is bounded and balanced.**  After any run, in the middle of an `acquire` or not: at most `limit`
workers are live, no index was out of bounds, and a worker counts its leases, so that dropping one never underflows; a
worker that fails to start leaves no entry; and a call during which no lease is dropped returns, an idle worker if there
is one, else a new one below the limit, else one with the fewest leases. -/
theorem worker_pool_balanced (limit : ℕ) (hpos : 1 ≤ limit) (hlimit : limit ≤ maxWorkers) (inputs : List WorkersInput)
    (s : Workers) (outputs : List WorkersOutput) (hrun : (workers limit).run {} inputs = some (s, outputs)) :
    s.live.length ≤ limit ∧ .panicked ∉ outputs ∧ (∀ w, s.ports w = s.leases.count w) ∧
      (∀ w s' out, (workers limit).step s (.release w) = some (s', out) → 1 ≤ s.ports w) ∧
      (∀ s' out, (workers limit).step s (.started false) = some (s', out) → s'.pool = s.pool ∧ s'.live = s.live) ∧
      (s.call = none → ∀ ok,
        (∃ rest s' outputs' result, Workers.Alone ok rest ∧
          (workers limit).run s (.lock :: rest) = some (s', outputs') ∧ .returned result ∈ outputs') ∧
        ∀ rest s' outputs' result, Workers.Alone ok rest → (workers limit).run s (.lock :: rest) = some (s', outputs') →
          .returned result ∈ outputs' → Workers.Chosen limit s ok result) := by
  have hsafe : s.Safe limit ∧ .panicked ∉ outputs := by
    refine Machine.run_rule_all (fun _ outputs s => s.Safe limit ∧ .panicked ∉ outputs)
      ⟨.initial limit, List.not_mem_nil⟩ (fun _ outputs s i s' out h hstep => ?_) hrun
    obtain ⟨hsafe, hout⟩ := Workers.safe_step hpos hlimit h.1 hstep
    exact ⟨hsafe, fun hmem => (List.mem_append.1 hmem).elim h.2 hout⟩
  obtain ⟨hsafe, hpanic⟩ := hsafe
  refine ⟨hsafe.live_length, hpanic, hsafe.counted, fun w s' out hstep => ?_, fun s' out hstep => ?_, fun hidle ok => ?_⟩
  · have hw : w ∈ s.leases := by
      by_contra hw
      simp only [workers, Workers.step, if_neg hw] at hstep
      cases hstep
    exact (hsafe.released hw).1
  · exact Workers.failed_start (show s.step limit (.started false) = some (s', out) from hstep)
  · have hlock : (workers limit).step s .lock =
        some ({ s with call := some ⟨List.replicate maxWorkers none, 0, .retain [] s.pool⟩ }, []) := by
      simp only [workers, Workers.step, hidle, hsafe.healthy]
      rfl
    constructor
    · obtain ⟨rest, s', outputs', result, halone, hrest, hreturned⟩ :=
        Workers.returns_retain ok hpos hlimit hsafe.locked rfl
      exact ⟨rest, s', outputs', result, halone, Machine.run_cons hlock hrest, hreturned⟩
    · intro rest s' outputs' result halone hrest hreturned
      obtain ⟨s₁, out, outputs₁, hstep, hrun₁, rfl⟩ := Machine.run_cons_inv hrest
      obtain ⟨rfl, rfl⟩ := Prod.mk.inj (Option.some.inj (hlock.symm.trans hstep))
      exact Workers.chosen_run hsafe hidle hlimit hpos halone hsafe.locked rfl
        ⟨⟨rfl, rfl, rfl, rfl⟩, [], rfl, rfl⟩ hrun₁ hreturned

/-- The first worker is started and leased; the next `acquire` has cloned it when the lease is dropped. -/
theorem worker_pool_balanced_dropped : ∃ s outputs,
    (workers 1).run {} (.lock :: List.replicate 7 .advance ++ .started true :: List.replicate 6 .advance ++
      [.lock, .advance, .release 0, .free 0]) = some (s, outputs) ∧ s.live = [0] ∧ s.leases = [] ∧ s.ports 0 = 0 := by
  refine ⟨_, _, rfl, by decide, by decide, ?_⟩
  exact (worker_pool_balanced 1 (by decide) (by decide) (.lock :: List.replicate 7 .advance ++ .started true ::
    List.replicate 6 .advance ++ [.lock, .advance, .release 0, .free 0]) _ _ rfl).2.2.1 0

end NodeSerialport.Native
