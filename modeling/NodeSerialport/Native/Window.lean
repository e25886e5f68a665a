import NodeSerialport.Native.Accounts
/-!
# The read window

The window holds the credit that was granted and is not used, and the adaptive size of the next read.  Whatever a client
grants and whatever the device returns, the reactor takes from it no more than it holds, and reads into no more than its
buffer has.

* `PowerSize` — the sizes a read may have;
* `Reactor.Sound` — what the slices of the read buffer rely on, wherever the reactor stands;
* `Windowed` — the invariant;
* `Bursting` — what a burst has taken from the window it found.
-/

namespace NodeSerialport.Native

open Parsers (Buffer)
open Lib (Machine)

variable {n n' : NativePort} {out : List Output}

/-! ### The size of a read -/

/-- A power of two between 64 and 65536. -/
def PowerSize (size : ℕ) : Prop := ∃ k, 6 ≤ k ∧ k ≤ 16 ∧ size = 2 ^ k

theorem nextPowerOfTwo_eq (length : ℕ) : ∃ k, nextPowerOfTwo length = 2 ^ k := by
  unfold nextPowerOfTwo
  split
  · exact ⟨0, rfl⟩
  · exact ⟨_, rfl⟩

theorem pow_two_mono : Monotone fun k : ℕ => 2 ^ k := fun _ _ h => Nat.pow_le_pow_right Nat.two_pos h

theorem min_pow (j : ℕ) : min (2 ^ j) chunkSize = 2 ^ min j 16 :=
  (pow_two_mono.map_min (a := j) (b := 16)).symm

theorem max_pow (j : ℕ) : max 64 (2 ^ j) = 2 ^ max 6 j :=
  (pow_two_mono.map_max (a := 6) (b := j)).symm

theorem nextSize_power {size : ℕ} (h : PowerSize size) (capacity length : ℕ) : PowerSize (nextSize size capacity length) := by
  unfold nextSize
  split
  · obtain ⟨k, hlow, -, rfl⟩ := h
    refine ⟨min (k + 1) 16, by omega, Nat.min_le_right _ _, ?_⟩
    rw [← pow_succ]
    exact min_pow (k + 1)
  · obtain ⟨k, hk⟩ := nextPowerOfTwo_eq length
    refine ⟨max 6 (min k 16), Nat.le_max_left _ _, by omega, ?_⟩
    rw [hk, min_pow, max_pow]

/-! ### The slices of the read buffer -/

theorem Reactor.resize_length (buffer : Buffer) (capacity : ℕ) : capacity ≤ (resize buffer capacity).length := by
  unfold resize
  rw [List.length_append, List.length_replicate]
  omega

/-- The slices are in bounds, and a burst stays within its number of reads. -/
def Reactor.Sound (r : Reactor) : Prop :=
  match r.pc with
  | .select => ∀ capacity, r.readCapacity = some capacity → capacity ≤ r.readBuffer.length
  | .filled length _ | .single length | .first length => length ≤ r.readBuffer.length
  | .burst left first batch =>
    left + (first.toList ++ batch).length < readBurstLimit ∧
      min r.window.bytes r.window.size ≤ (resize r.readBuffer (min r.window.bytes r.window.size)).length
  | _ => True

/-- What one step of the reactor keeps of its read buffer and of the size of the next read. -/
structure Shaped (r : Reactor) : Prop where
  size : PowerSize r.window.size
  sound : r.Sound

theorem toSelect_shaped {r : Reactor} (h : PowerSize r.window.size) : Shaped r.toSelect := by
  refine ⟨h, fun capacity hcapacity => ?_⟩
  have hcapacity' : r.readCapacity = some capacity := hcapacity
  have hbuffer : r.toSelect.readBuffer = Reactor.resize r.readBuffer capacity := by
    unfold Reactor.toSelect
    dsimp only
    rw [hcapacity']
  rw [hbuffer]
  exact Reactor.resize_length _ _

theorem finish_shaped (h : PowerSize n.reactor.window.size) (result : Except IoError Unit) :
    Shaped (n.finish result).reactor :=
  ⟨h, trivial⟩

theorem sendAnd_shaped {event : CallbackEvent} {next : NativePort → NativePort}
    (hsize : PowerSize n.reactor.window.size) (hstep : n.sendAnd event next = (n', out))
    (hnext : Shaped (next (n.push event)).reactor) : Shaped n'.reactor := by
  rw [sendAnd_eq] at hstep
  split at hstep <;> cases hstep
  · exact hnext
  · exact finish_shaped hsize _

theorem sendRead_shaped (h : PowerSize n.reactor.window.size) {length : ℕ} {pc : Pc}
    (hpc : pc = .top ∨ pc = .burst (readBurstLimit - 1) none []) (hstep : n.sendRead length pc = (n', out)) :
    Shaped n'.reactor := by
  unfold NativePort.sendRead at hstep
  refine sendAnd_shaped (by exact h) hstep ?_
  rcases hpc with rfl | rfl
  · exact ⟨h, trivial⟩
  · exact ⟨h, Nat.lt_succ_self (readBurstLimit - 1), Reactor.resize_length _ _⟩

theorem stepCommands_shaped (h : PowerSize n.reactor.window.size) : Shaped n.stepCommands.reactor := by
  unfold NativePort.stepCommands
  split
  · exact toSelect_shaped h
  · split
    · exact finish_shaped h _
    · split
      · split
        · exact toSelect_shaped h
        · exact ⟨h, trivial⟩
      · exact ⟨h, trivial⟩

theorem stepReceived_shaped (h : PowerSize n.reactor.window.size) (hstep : n.stepReceived = some n') :
    Shaped n'.reactor := by
  unfold NativePort.stepReceived at hstep
  split at hstep
  · cases hstep
  · dsimp only at hstep
    split at hstep
    · split at hstep <;> cases hstep <;> exact ⟨h, trivial⟩
    · split at hstep <;> cases hstep <;> exact ⟨h, trivial⟩
    · cases hstep
      exact ⟨h, trivial⟩

theorem stepRead_shaped (h : PowerSize n.reactor.window.size) {capacity : ℕ} {data : Buffer}
    (hstep : n.stepRead capacity data = (n', out)) : Shaped n'.reactor := by
  have hsize := nextSize_power h capacity data.length
  unfold NativePort.stepRead at hstep
  dsimp only at hstep
  split at hstep
  · cases hstep
    exact ⟨h, trivial⟩
  · split at hstep
    · cases hstep
      exact ⟨hsize, Reactor.fill_length _ _⟩
    · split at hstep <;> cases hstep <;> exact ⟨hsize, trivial⟩

theorem stepTransfer_shaped (h : Shaped n.reactor) (hpc : n.reactor.pc = .select) {reader : Io Buffer} {writer : Io ℕ}
    (hstep : n.stepTransfer reader writer = some (n', out)) : Shaped n'.reactor := by
  unfold NativePort.stepTransfer at hstep
  dsimp only at hstep
  split at hstep
  · cases hstep
  · split at hstep
    · -- neither direction was ready, and the same slice is offered again
      cases hstep
      refine ⟨h.size, ?_⟩
      have hsound := h.sound
      unfold Reactor.Sound at hsound ⊢
      rw [hpc] at hsound
      dsimp only
      rw [hpc]
      exact hsound
    · cases hstep
      exact ⟨h.size, trivial⟩
    · split at hstep
      · exact stepRead_shaped (by exact h.size) (Option.some.inj hstep)
      · cases hstep
    · split at hstep
      · split at hstep <;> cases hstep <;> exact ⟨h.size, trivial⟩
      · cases hstep

theorem collect_length (first : Option Buffer) (batch : List Buffer) (data : Buffer) (h : first = none ∨ batch = []) :
    ((collect first batch data).1.toList ++ (collect first batch data).2).length =
      (first.toList ++ batch).length + 1 := by
  rw [collect_append h, List.length_append, List.length_singleton]

theorem stepBurst_shaped (h : Shaped n.reactor) (hfits : Fits n) {left : ℕ} {first : Option Buffer} {batch : List Buffer}
    (hpc : n.reactor.pc = .burst left first batch) (hleft : 0 < left) {result : Except IoError Buffer}
    (hstep : n.stepBurst left first batch result = some (n', out)) : Shaped n'.reactor := by
  have hsound := h.sound
  unfold Reactor.Sound at hsound
  rw [hpc] at hsound
  unfold NativePort.stepBurst at hstep
  dsimp only at hstep
  split at hstep
  · split at hstep <;> cases hstep <;> exact ⟨h.size, trivial⟩
  · split at hstep
    · split at hstep
      · cases hstep
        exact ⟨h.size, trivial⟩
      · rename_i data hlength hdata
        cases hstep
        refine ⟨nextSize_power h.size _ _, ?_, Reactor.resize_length _ _⟩
        have hlen := collect_length first batch data (hfits.burst hpc)
        have hless := hsound.1
        rw [Reactor.fill_take]
        show left - 1 + _ < _
        rw [hlen]
        omega
    · cases hstep

theorem stepPublish_shaped (h : PowerSize n.reactor.window.size) {collected : Except IoError Unit} {first : Option Buffer}
    {batch : List Buffer} (hstep : n.stepPublish collected first batch = (n', out)) : Shaped n'.reactor := by
  have hafter : ∀ m : NativePort, PowerSize m.reactor.window.size → Shaped (NativePort.afterBurst collected m).reactor := by
    intro m hm
    cases collected with
    | ok => exact ⟨hm, trivial⟩
    | error error => exact finish_shaped hm _
  unfold NativePort.stepPublish at hstep
  split at hstep
  · exact sendAnd_shaped h hstep (hafter _ h)
  · split at hstep
    · cases hstep
      exact hafter _ h
    · exact sendAnd_shaped h hstep (hafter _ h)

/-- **The slices the reactor takes are in bounds**, and the size of a read is a power of two. -/
theorem stepReactor_shaped (h : Shaped n.reactor) (hfits : Fits n) {input : ReactorInput}
    (hstep : n.stepReactor input = some (n', out)) : Shaped n'.reactor := by
  have hsize := h.size
  unfold NativePort.stepReactor at hstep
  split at hstep
  · cases hstep
    exact ⟨hsize, trivial⟩
  · cases hstep
    exact ⟨hsize, trivial⟩
  · split at hstep
    · cases hstep
      exact ⟨hsize, trivial⟩
    · rw [send_eq] at hstep
      by_cases hroom : n.Room
      · rw [if_pos hroom] at hstep
        cases hstep
        exact ⟨hsize, trivial⟩
      · rw [if_neg hroom] at hstep
        cases hstep
        exact ⟨hsize, trivial⟩
  · split at hstep <;> cases hstep <;> exact ⟨hsize, trivial⟩
  · cases hstep
    exact stepCommands_shaped hsize
  · -- a drain asks how many bytes are left
    split at hstep
    · split at hstep
      · cases hstep
        exact ⟨hsize, trivial⟩
      · split at hstep <;> cases hstep
        · exact toSelect_shaped hsize
        · exact ⟨hsize, trivial⟩
    · cases hstep
  · split at hstep
    · cases hstep
    · cases hstep
    · split at hstep <;> cases hstep <;> exact ⟨hsize, trivial⟩
  · split at hstep
    · cases hstep
    · split at hstep <;> cases hstep <;> exact ⟨hsize, trivial⟩
  · cases hstep
    exact ⟨hsize, trivial⟩
  · exact sendAnd_shaped hsize (Option.some.inj hstep) ⟨hsize, trivial⟩
  · exact sendAnd_shaped hsize (Option.some.inj hstep) ⟨hsize, trivial⟩
  · cases hstep
    exact ⟨hsize, trivial⟩
  · obtain ⟨m, hm, heq⟩ := Option.map_eq_some_iff.1 hstep
    cases heq
    exact stepReceived_shaped hsize hm
  · split at hstep <;> cases hstep
    exact ⟨hsize, trivial⟩
  · rename_i reader writer hpc
    exact stepTransfer_shaped h hpc hstep
  · split at hstep <;> cases hstep
    exact ⟨hsize, trivial⟩
  · -- the bytes of a read stay where they are
    rename_i length full hpc
    have hsound := h.sound
    unfold Reactor.Sound at hsound
    rw [hpc] at hsound
    split at hstep <;> cases hstep <;> exact ⟨hsize, hsound⟩
  · exact sendRead_shaped hsize (.inl rfl) (Option.some.inj hstep)
  · refine sendRead_shaped hsize ?_ (Option.some.inj hstep)
    split
    · exact .inl rfl
    · exact .inr rfl
  · split at hstep <;> cases hstep
    exact ⟨hsize, trivial⟩
  · split at hstep <;> cases hstep
    exact ⟨hsize, trivial⟩
  · rename_i left first batch result hpc
    split at hstep
    · rename_i hgoes
      simp only [NativePort.burstGoesOn, Bool.and_eq_true, decide_eq_true_eq] at hgoes
      exact stepBurst_shaped h hfits hpc hgoes.1.1.1.1 hstep
    · cases hstep
  · exact stepPublish_shaped hsize (Option.some.inj hstep)
  · cases hstep
    exact ⟨hsize, trivial⟩
  · cases hstep
    exact ⟨hsize, trivial⟩
  · rw [send_eq] at hstep
    by_cases hroom : n.Room
    · rw [if_pos hroom] at hstep
      cases hstep
      exact ⟨hsize, trivial⟩
    · rw [if_neg hroom] at hstep
      cases hstep
      exact ⟨hsize, trivial⟩
  · cases hstep
    exact ⟨hsize, trivial⟩
  · cases hstep

/-! ### The credit -/

namespace Pc

/-- The connection ends with an error, or has ended. -/
def failed : Pc → Bool
  | .done (.error _) | .stopped (.error _) | .released (.error _) | .reported | .closed => true
  | _ => false

end Pc

theorem stepReactor_failed (h : n.reactor.pc.failed = true) {input : ReactorInput}
    (hstep : n.stepReactor input = some (n', out)) : n'.reactor.pc.failed = true := by
  unfold NativePort.stepReactor at hstep
  split at hstep
  all_goals try
    rename_i hpc
    rw [hpc] at h
    cases h
  · rename_i result hpc
    cases hstep
    rw [hpc] at h
    cases result with
    | ok => cases h
    | error => rfl
  · rename_i result hpc
    cases hstep
    rw [hpc] at h
    cases result with
    | ok => cases h
    | error => rfl
  · rw [send_eq] at hstep
    by_cases hroom : n.Room
    · rw [if_pos hroom] at hstep
      cases hstep
      rfl
    · rw [if_neg hroom] at hstep
      cases hstep
      rfl
  · cases hstep
    rfl
  · cases hstep

/-- **What a transition does to the credit.** -/
inductive Credits (n n' : NativePort) (out : List Output) : Prop
  | same (bytes : n'.reactor.window.bytes = n.reactor.window.bytes) (slots : n'.reactor.window.slots = n.reactor.window.slots)
      (streaming : n'.reactor.streaming = n.reactor.streaming)
      (ended : n.reactor.pc.ended = true → n'.reactor.pc.ended = true) (hout : reads out = [])
  | answered {data : Buffer} (bytes : n'.reactor.window.bytes = n.reactor.window.bytes)
      (slots : n'.reactor.window.slots = n.reactor.window.slots) (streaming : n'.reactor.streaming = n.reactor.streaming)
      (pc : n.reactor.pc = .select) (read : n.reactor.read.isSome = true) (hout : reads out = [data])
  | taken {data : Buffer} (bytes : n'.reactor.window.bytes + data.length = n.reactor.window.bytes)
      (slots : n'.reactor.window.slots + 1 = n.reactor.window.slots) (streaming : n.reactor.streaming = true)
      (streaming' : n'.reactor.streaming = true) (hout : reads out = [data])
  | granted (bytes : n'.reactor.window.bytes ≤ chunkSize) (slots : n'.reactor.window.slots ≤ readSlots)
      (streaming' : n'.reactor.streaming = true) (hout : reads out = [])
  | failed (ended : n'.reactor.pc.ended = true) (failed : n'.reactor.pc.failed = true) (hout : reads out = [])

theorem Fits.streams (h : Fits n) (hended : n.reactor.pc.ended = false) {data : Buffer} (hdata : data ≠ [])
    (hbytes : data.length ≤ n.reactor.window.bytes) : n.reactor.streaming = true := by
  have hpos : 0 < data.length := List.length_pos_iff.2 hdata
  by_contra hno
  have hzero := h.uncredited hended (by simpa using hno)
  omega

theorem Moves.credits (h : Moves n n' out) (hfits : Fits n) : Credits n n' out := by
  have hkept : ∀ {n'}, Kept n n' → reads out = [] → Credits n n' out := fun k hout =>
    .same (by rw [k.window]) (by rw [k.window]) k.streaming k.ended hout
  cases h with
  | calm k => exact hkept k rfl
  | refused k => exact hkept k rfl
  | unpublished hpc k => exact hkept k rfl
  | published hpc hevent k =>
    refine .same ?_ ?_ k.streaming k.ended rfl
    all_goals
      rw [k.window]
      rfl
  | overdrawn => exact .failed rfl rfl rfl
  | credited hpc hchannel hread hbytes hslots => exact .granted hbytes hslots rfl rfl
  | charged hpc hread hdata hbytes hslots =>
    have hstreaming := hfits.streams (by rw [hpc]; rfl) hdata hbytes
    exact .taken (Nat.sub_add_cancel hbytes) (Nat.sub_add_cancel hslots) hstreaming hstreaming rfl
  | followed hpc hdata hbytes hslots =>
    have hstreaming := hfits.streams (by rw [hpc]; rfl) hdata hbytes
    exact .taken (Nat.sub_add_cancel hbytes) (Nat.sub_add_cancel hslots) hstreaming hstreaming rfl
  | answered hpc hread hdata => exact .answered rfl rfl rfl hpc (by rw [hread]; rfl) rfl
  | signalled hsignal =>
    refine .same rfl rfl rfl ?_ rfl
    rcases hsignal with ⟨hpc, -, -⟩ | ⟨-, rfl, -⟩
    · rw [hpc]
      exact nofun
    · exact fun _ => rfl
  | executed before hpc =>
    refine .same rfl rfl rfl ?_ rfl
    rw [hpc]
    exact nofun
  | replied hpc | sent hpc =>
    refine .same rfl rfl rfl ?_ rfl
    rcases hpc with hpc | hpc <;> rw [hpc] <;> exact nofun
  | written hpc | popped hpc | busy hpc | reading hpc | enlisted hpc | wrote hpc | chosen hpc | collected hpc =>
    refine .same rfl rfl rfl ?_ rfl
    rw [hpc]
    exact nofun

/-! ### The invariant -/

/-- **The read window is safe**, whatever was granted and read. -/
structure Windowed (n : NativePort) : Prop where
  fits : Fits n
  shaped : Shaped n.reactor
  bounded : n.reactor.pc.failed = false → n.reactor.window.bytes ≤ chunkSize ∧ n.reactor.window.slots ≤ readSlots
  idle : n.reactor.pc.ended = false → n.reactor.streaming = false → n.reactor.window.slots = 0

namespace Windowed

theorem start : Windowed {} := by
  refine ⟨.start, ⟨⟨10, by decide, by decide, rfl⟩, trivial⟩, fun _ => ⟨?_, ?_⟩, fun _ _ => rfl⟩
  · exact Nat.zero_le _
  · exact Nat.zero_le _

theorem sameReactor (h : Windowed n) (hs : SameReactor n n') : Windowed n' := by
  refine ⟨h.fits.sameReactor hs, ?_, ?_, ?_⟩
  · rw [hs.reactor]
    exact h.shaped
  · rw [hs.reactor]
    exact h.bounded
  · rw [hs.reactor]
    exact h.idle

theorem reactor (h : Windowed n) {input : ReactorInput} (hstep : n.stepReactor input = some (n', out)) : Windowed n' := by
  obtain ⟨hmoves, hfits⟩ := stepReactor_moves h.fits hstep
  have hfailed : n'.reactor.pc.failed = false → n.reactor.pc.failed = false := by
    intro hno
    by_contra hyes
    rw [stepReactor_failed (by simpa using hyes) hstep] at hno
    cases hno
  refine ⟨hfits, stepReactor_shaped h.shaped h.fits hstep, ?_, ?_⟩
  · intro hno
    have hbounded := h.bounded (hfailed hno)
    cases hmoves.credits h.fits with
    | same bytes slots | answered bytes slots =>
      rw [bytes, slots]
      exact hbounded
    | taken bytes slots =>
      constructor <;> omega
    | granted bytes slots => exact ⟨bytes, slots⟩
    | failed ended failed => exact absurd (failed.symm.trans hno) nofun
  · intro hno hs
    cases hmoves.credits h.fits with
    | same bytes slots streaming ended =>
      rw [slots]
      refine h.idle ?_ (streaming ▸ hs)
      by_contra hyes
      rw [ended (by simpa using hyes)] at hno
      cases hno
    | answered bytes slots streaming pc =>
      rw [slots]
      exact h.idle (by rw [pc]; rfl) (streaming ▸ hs)
    | taken bytes slots streaming streaming' => exact absurd (streaming'.symm.trans hs) nofun
    | granted bytes slots streaming' => exact absurd (streaming'.symm.trans hs) nofun
    | failed ended => exact absurd (ended.symm.trans hno) nofun

theorem step (h : Windowed n) {i : Input} (hstep : native.step n i = some (n', out)) : Windowed n' := by
  by_cases hi : ∃ input, i = .reactor input
  · obtain ⟨input, rfl⟩ := hi
    exact h.reactor hstep
  · exact h.sameReactor (step_sameReactor (fun input heq => hi ⟨input, heq⟩) hstep).1

theorem run {inputs : List Input} (hrun : native.run {} inputs = some (n, out)) : Windowed n :=
  Machine.run_invariant Windowed (fun _ _ _ _ h hstep => h.step hstep) start hrun

/-- Every byte that is read was offered within the window, or for an explicit read. -/
theorem taken (h : Windowed n) {i : Input} (hstep : native.step n i = some (n', out)) {data : Buffer}
    (hdata : data ∈ reads out) :
    n'.reactor.window.bytes + data.length = n.reactor.window.bytes ∧
        n'.reactor.window.slots + 1 = n.reactor.window.slots ∧ n.reactor.streaming = true ∨
      n'.reactor.window.bytes = n.reactor.window.bytes ∧ n'.reactor.window.slots = n.reactor.window.slots ∧
        n.reactor.read.isSome = true := by
  rcases step_moves h.fits hstep with ⟨hmoves, -⟩ | ⟨-, hlocal⟩
  · cases hmoves.credits h.fits with
    | taken bytes slots streaming streaming' hout =>
      rw [hout] at hdata
      obtain rfl := List.mem_singleton.1 hdata
      exact .inl ⟨bytes, slots, streaming⟩
    | answered bytes slots streaming pc read => exact .inr ⟨bytes, slots, read⟩
    | same bytes slots streaming ended hout =>
      rw [hout] at hdata
      cases hdata
    | granted bytes slots streaming' hout =>
      rw [hout] at hdata
      cases hdata
    | failed ended failed hout =>
      rw [hout] at hdata
      cases hdata
  · rw [(local_reads hlocal).2] at hdata
    cases hdata

end Windowed

/-! ### Bursts -/

/-- A follow-up read is tried. -/
def Input.tries : Input → Bool
  | .reactor (.tryRead _) => true
  | _ => false

/-- The reactor moves only inside a burst. -/
def InBurst (n : NativePort) : Input → Prop
  | .reactor _ => ∃ left first batch, n.reactor.pc = .burst left first batch
  | _ => True

/-- **A step inside a burst** reads once more, or ends the burst. -/
theorem stepReactor_burst {left : ℕ} {first : Option Buffer} {batch : List Buffer}
    (hpc : n.reactor.pc = .burst left first batch) {input : ReactorInput}
    (hstep : n.stepReactor input = some (n', out)) :
    (Input.reactor input).tries = true ∧ 0 < left ∧ (∃ data, reads out = [data]) ∧
        (∃ first' batch', n'.reactor.pc = .burst (left - 1) first' batch') ∨
      ((Input.reactor input).tries = true → 0 < left) ∧ reads out = [] ∧ n'.reactor.window = n.reactor.window ∧
        ∃ collected, n'.reactor.pc = .publish collected first batch := by
  unfold NativePort.stepReactor at hstep
  rw [hpc] at hstep
  cases input with
  | run =>
    dsimp only at hstep
    split at hstep <;> cases hstep
    exact .inr ⟨nofun, rfl, rfl, _, rfl⟩
  | noBudget =>
    dsimp only at hstep
    split at hstep <;> cases hstep
    exact .inr ⟨nofun, rfl, rfl, _, rfl⟩
  | tryRead result =>
    dsimp only at hstep
    split at hstep
    · rename_i hgoes
      simp only [NativePort.burstGoesOn, Bool.and_eq_true, decide_eq_true_eq] at hgoes
      have hleft : 0 < left := hgoes.1.1.1.1
      unfold NativePort.stepBurst at hstep
      dsimp only at hstep
      split at hstep
      · split at hstep <;> cases hstep <;> exact .inr ⟨fun _ => hleft, rfl, rfl, _, rfl⟩
      · split at hstep
        · split at hstep <;> cases hstep
          · exact .inr ⟨fun _ => hleft, rfl, rfl, _, rfl⟩
          · exact .inl ⟨rfl, hleft, ⟨_, rfl⟩, _, _, rfl⟩
        · cases hstep
    · cases hstep
  | _ => cases hstep

/-- What a burst of at most `left` more reads has taken from the window of `n`. -/
structure Bursting (n : NativePort) (left : ℕ) (inputs : List Input) (outputs : List Output) (n' : NativePort) : Prop where
  fits : Fits n'
  bytes : n'.reactor.window.bytes + (reads outputs).flatten.length = n.reactor.window.bytes
  slots : n'.reactor.window.slots + (reads outputs).length = n.reactor.window.slots
  collected : (reads outputs).length ≤ inputs.countP Input.tries
  tries : inputs.countP Input.tries ≤ left
  left : ∀ left' first batch, n'.reactor.pc = .burst left' first batch → inputs.countP Input.tries + left' = left

namespace Bursting

theorem start (h : Fits n) {left : ℕ} {first : Option Buffer} {batch : List Buffer}
    (hpc : n.reactor.pc = .burst left first batch) : Bursting n left [] [] n := by
  refine ⟨h, rfl, rfl, le_refl _, Nat.zero_le _, fun left' first' batch' hpc' => ?_⟩
  rw [hpc] at hpc'
  cases hpc'
  exact Nat.zero_add _

variable {n₀ : NativePort} {left : ℕ} {inputs : List Input} {outputs : List Output}

theorem sameReactor (h : Bursting n₀ left inputs outputs n) (hs : SameReactor n n') (hreads : reads out = []) {i : Input}
    (hi : i.tries = false) : Bursting n₀ left (inputs ++ [i]) (outputs ++ out) n' := by
  have hcount : (inputs ++ [i]).countP Input.tries = inputs.countP Input.tries := by
    rw [List.countP_append, List.countP_singleton, hi]
    rfl
  have hsame : reads (outputs ++ out) = reads outputs := by rw [reads_append, hreads, List.append_nil]
  refine ⟨h.fits.sameReactor hs, ?_, ?_, ?_, ?_, ?_⟩
  · rw [hs.reactor, hsame]
    exact h.bytes
  · rw [hs.reactor, hsame]
    exact h.slots
  · rw [hsame, hcount]
    exact h.collected
  · rw [hcount]
    exact h.tries
  · rw [hs.reactor, hcount]
    exact h.left

theorem reactor (h : Bursting n₀ left inputs outputs n) {left' : ℕ} {first : Option Buffer} {batch : List Buffer}
    (hpc : n.reactor.pc = .burst left' first batch) {input : ReactorInput}
    (hstep : n.stepReactor input = some (n', out)) :
    Bursting n₀ left (inputs ++ [.reactor input]) (outputs ++ out) n' := by
  obtain ⟨hmoves, hfits⟩ := stepReactor_moves h.fits hstep
  have hleft := h.left _ _ _ hpc
  have hbytes := h.bytes
  have hslots := h.slots
  have hreads := h.collected
  have hcount : (inputs ++ [Input.reactor input]).countP Input.tries =
      inputs.countP Input.tries + if (Input.reactor input).tries then 1 else 0 := by
    rw [List.countP_append, List.countP_singleton]
  rcases stepReactor_burst hpc hstep with ⟨htries, hpos, ⟨data, hout⟩, first', batch', hpc'⟩ |
    ⟨htries, hout, hwindow, collected, hpc'⟩
  · rw [if_pos htries] at hcount
    have htaken : n'.reactor.window.bytes + data.length = n.reactor.window.bytes ∧
        n'.reactor.window.slots + 1 = n.reactor.window.slots := by
      cases hmoves.credits h.fits with
      | taken bytes slots streaming streaming' hout' =>
        obtain rfl := List.singleton_inj.1 (hout.symm.trans hout')
        exact ⟨bytes, slots⟩
      | answered bytes slots streaming pc => exact absurd (hpc.symm.trans pc) nofun
      | same bytes slots streaming ended hout' => exact absurd (hout'.symm.trans hout) nofun
      | granted bytes slots streaming' hout' => exact absurd (hout'.symm.trans hout) nofun
      | failed ended failed hout' => exact absurd (hout'.symm.trans hout) nofun
    refine ⟨hfits, ?_, ?_, ?_, ?_, ?_⟩
    · rw [reads_append, hout, List.flatten_append, List.length_append, List.flatten_singleton]
      omega
    · rw [reads_append, hout, List.length_append, List.length_singleton]
      omega
    · rw [reads_append, hout, List.length_append, List.length_singleton]
      omega
    · omega
    · intro left'' first'' batch'' hat
      rw [hpc'] at hat
      cases hat
      omega
  · refine ⟨hfits, ?_, ?_, ?_, ?_, ?_⟩
    · rw [reads_append, hout, List.append_nil, hwindow]
      exact hbytes
    · rw [reads_append, hout, List.append_nil, hwindow]
      exact hslots
    · rw [reads_append, hout, List.append_nil]
      omega
    · rw [hcount]
      split
      · rename_i hyes
        have := htries hyes
        omega
      · omega
    · intro left'' first'' batch'' hat
      rw [hpc'] at hat
      cases hat

theorem run (h : Fits n) {first : Option Buffer} {batch : List Buffer} (hpc : n.reactor.pc = .burst left first batch)
    (hburst : native.Along (fun _ _ n i => InBurst n i) n inputs) (hrun : native.run n inputs = some (n', outputs)) :
    Bursting n left inputs outputs n' := by
  refine Machine.run_rule (Bursting n left) (start h hpc) ?_ hburst hrun
  intro inputs outputs n₁ i n₂ out hP hC hstep
  by_cases hi : ∃ input, i = .reactor input
  · obtain ⟨input, rfl⟩ := hi
    obtain ⟨left', first', batch', hpc'⟩ := hC
    exact hP.reactor hpc' hstep
  · obtain ⟨hs, hlocal⟩ := step_sameReactor (fun input heq => hi ⟨input, heq⟩) hstep
    refine hP.sameReactor hs (local_reads hlocal).2 ?_
    unfold Input.tries
    split
    · exact absurd ⟨_, rfl⟩ hi
    · rfl

end Bursting

/-! ### Main result -/

/-- **The reactor's read window is safe for any client.**  Over every run of the native port:

* the window holds at most 65536 bytes and 32 slots, or the connection ends with an error;
* the size of a read is a power of two between 64 and 65536;
* the slices of the read buffer are in bounds;
* a reactor that streams has no explicit read, and one with an explicit read has no credit;
* a read takes its bytes and one slot from a window that holds them, or answers an explicit read;
* a burst tries at most 15 reads, and takes them from the credit it found. -/
theorem window_safe (inputs : List Input) (n : NativePort) (outputs : List Output)
    (hrun : native.run {} inputs = some (n, outputs)) :
    (n.reactor.window.bytes ≤ 65536 ∧ n.reactor.window.slots ≤ 32 ∨ n.reactor.pc.failed = true) ∧
    PowerSize n.reactor.window.size ∧
    n.reactor.Sound ∧
    (n.reactor.streaming = true → n.reactor.read = none) ∧
    (n.reactor.pc.ended = false → n.reactor.read.isSome = true →
      n.reactor.window.bytes = 0 ∧ n.reactor.window.slots = 0) ∧
    (∀ i n' out data, native.step n i = some (n', out) → data ∈ reads out →
      n'.reactor.window.bytes + data.length = n.reactor.window.bytes ∧
          n'.reactor.window.slots + 1 = n.reactor.window.slots ∧ n.reactor.streaming = true ∨
        n'.reactor.window.bytes = n.reactor.window.bytes ∧ n'.reactor.window.slots = n.reactor.window.slots ∧
          n.reactor.read.isSome = true) ∧
    ∀ left first batch more n' out, n.reactor.pc = .burst left first batch →
      native.Along (fun _ _ n i => InBurst n i) n more → native.run n more = some (n', out) →
      left ≤ 15 ∧ more.countP Input.tries ≤ left ∧ (reads out).length ≤ more.countP Input.tries ∧
        n'.reactor.window.bytes + (reads out).flatten.length = n.reactor.window.bytes ∧
        n'.reactor.window.slots + (reads out).length = n.reactor.window.slots := by
  have h := Windowed.run hrun
  refine ⟨?_, h.shaped.size, h.shaped.sound, h.fits.exclusive, ?_, ?_, ?_⟩
  · by_cases hfailed : n.reactor.pc.failed = true
    · exact .inr hfailed
    · exact .inl (h.bounded (by simpa using hfailed))
  · intro hended hread
    have hstreaming : n.reactor.streaming = false := by
      by_contra hyes
      rw [h.fits.exclusive (by simpa using hyes)] at hread
      cases hread
    exact ⟨h.fits.uncredited hended hstreaming, h.idle hended hstreaming⟩
  · exact fun i n' out data hstep hdata => h.taken hstep hdata
  · intro left first batch more n' out hpc hburst hmore
    have hrest := Bursting.run h.fits hpc hburst hmore
    have hsound := h.shaped.sound
    unfold Reactor.Sound at hsound
    rw [hpc] at hsound
    have hless : left + (first.toList ++ batch).length < 16 := hsound.1
    exact ⟨by omega, hrest.tries, hrest.collected, hrest.bytes, hrest.slots⟩

/-- A read that fills its slice, and a burst of two reads behind it. -/
theorem window_safe_burst : ∃ n out n' out',
    native.run {} [.reactor (.opened (.ok ())), .reactor .run, .call (.readCredit 100 5), .advance .pending,
      .advance .pending, .advance .pending, .returns, .reactor .run, .reactor .run, .reactor .received, .reactor .run,
      .reactor .run, .reactor (.transfer (.ready [1]) .pending), .reactor .run, .reactor .run, .reactor .run,
      .reactor .run, .reactor (.transfer (.ready (List.replicate 64 7)) .pending), .reactor .run, .reactor .run] =
        some (n, out) ∧
    n.reactor.window = ⟨35, 3, 128⟩ ∧ PowerSize n.reactor.window.size ∧
    native.run n [.reactor (.tryRead (.ok [2, 3])), .reactor (.tryRead (.ok [4]))] = some (n', out') ∧
    n'.reactor.window.bytes + 3 = n.reactor.window.bytes ∧ n'.reactor.window.slots + 2 = n.reactor.window.slots := by
  refine ⟨_, _, _, _, rfl, rfl, ?_, rfl, ?_⟩
  all_goals
    have h := window_safe [.reactor (.opened (.ok ())), .reactor .run, .call (.readCredit 100 5), .advance .pending,
      .advance .pending, .advance .pending, .returns, .reactor .run, .reactor .run, .reactor .received, .reactor .run,
      .reactor .run, .reactor (.transfer (.ready [1]) .pending), .reactor .run, .reactor .run, .reactor .run,
      .reactor .run, .reactor (.transfer (.ready (List.replicate 64 7)) .pending), .reactor .run, .reactor .run] _ _ rfl
  · exact h.2.1
  · have hburst := h.2.2.2.2.2.2 15 none [] [.reactor (.tryRead (.ok [2, 3])), .reactor (.tryRead (.ok [4]))] _ _ rfl
      ?_ rfl
    · exact hburst.2.2.2
    · refine ((Machine.Along.nil _ _).snoc (i := Input.reactor (.tryRead (.ok [2, 3]))) ?_).snoc ?_
      all_goals
        intro s outputs hrun
        cases hrun
        exact ⟨_, _, _, rfl⟩

end NodeSerialport.Native
