import NodeSerialport.Lib.Promises
import NodeSerialport.Mock.Device
/-!
# The sessions of a mock device

* `Output.settles`, `Output.data` — what an output settles and returns; `MockBinding.feeds` — what an event feeds;
* `Shared` — the sessions of the device are the ports that are open, and a locked one is alone;
* `Awake` — a pending read that bytes wait for has its tick scheduled;
* `Sound` — both, the promises of the reads, and the queue: kept by every step (`keeps_step`);
* `mock_conserves`: the device neither loses bytes nor misses a wake-up.
-/

namespace NodeSerialport.Mock

open Parsers (Buffer ByteQueue)
open Lib (Machine Held)

/-! ### What outputs show -/

/-- The read that an output settles. -/
def Output.settles : Output → Option ℕ
  | .resolved r _ | .rejected r _ => some r
  | _ => none

/-- The bytes a read returned. -/
def Output.data : Output → Buffer
  | .resolved _ data => data
  | _ => []

namespace MockBinding

/-- The bytes an event feeds: what is given to the device, or emitted by a session that is open. -/
def feeds (m : MockBinding) : Event → Buffer
  | .feed data => data
  | .emitData p data | .tick (.ready p data) _ | .tick (.echo p data) _ =>
    if (m.ports p).any (·.isOpen) = true then data else []
  | _ => []

variable {m m' : MockBinding} {p q : ℕ} {port port' : MockPortBinding} {outputs out : List Output}

/-- The promise of the read that is pending on a port. -/
def pendings (m : MockBinding) (p : ℕ) : Option ℕ := ((m.ports p).bind (·.pending)).map (·.promise)

/-! ### Invariants -/

/-- **The sessions** are the open ports, and a locked one is the only one. -/
structure Shared (m : MockBinding) : Prop where
  known : ∀ p, m.opened ≤ p → m.ports p = none
  sessions : ∀ p, p ∈ m.device.sessions ↔ ∃ port, m.ports p = some port ∧ port.isOpen = true
  exclusive : ∀ p port, m.ports p = some port → port.isOpen = true → port.lock = true → m.device.sessions = [p]

/-- **A pending read** is one of an open port, asks for something, and has a tick scheduled if there are bytes; but for
the ports that are still to be woken. -/
structure Awake (asleep : List ℕ) (m : MockBinding) : Prop where
  pending : ∀ p port request, m.ports p = some port → port.pending = some request →
    port.isOpen = true ∧ 1 ≤ request.length ∧ (p ∉ asleep → m.device.bytes.bytes ≠ [] → port.scheduled = true)
  scheduled : ∀ p port, m.ports p = some port → port.scheduled = true → .wake p ∈ m.ticks

structure Sound (outputs : List Output) (m : MockBinding) : Prop where
  wf : m.device.bytes.WF
  progress : 1 ≤ m.device.maxReadSize
  shared : m.Shared
  awake : m.Awake []
  reads : Held m.pendings m.reads (outputs.filterMap Output.settles)

/-! ### Ports and ticks -/

@[simp] theorem ports_setPort : (m.setPort p port).ports q = if q = p then some port else m.ports q := by
  unfold setPort
  exact Function.update_apply m.ports p (some port) q

theorem pendings_setPort : (m.setPort p port).pendings q = if q = p then port.pending.map (·.promise) else m.pendings q := by
  unfold pendings
  rw [ports_setPort]
  split <;> rfl

variable (port') in
theorem pendings_same (hport : m.ports p = some port) (hpending : port'.pending = port.pending) :
    (m.setPort p port').pendings = m.pendings := by
  funext q
  rw [pendings_setPort]
  split
  · rename_i heq
    subst heq
    unfold pendings
    rw [hport, hpending]
    rfl
  · rfl

theorem Shared.setPort (h : m.Shared) (hport : m.ports p = some port) (hlock : port'.lock = port.lock)
    (hopen : port'.isOpen = port.isOpen) : (m.setPort p port').Shared := by
  have hof {q : ℕ} {port₁ : MockPortBinding} (hq : (m.setPort p port').ports q = some port₁) :
      ∃ port₀, m.ports q = some port₀ ∧ port₁.lock = port₀.lock ∧ port₁.isOpen = port₀.isOpen := by
    rw [ports_setPort] at hq
    split at hq
    · rename_i heq
      subst heq
      cases hq
      exact ⟨port, hport, hlock, hopen⟩
    · exact ⟨port₁, hq, rfl, rfl⟩
  refine ⟨fun q hq => ?_, fun q => ?_, fun q port₁ hq hopen₁ hlock₁ => ?_⟩
  · have hnone := h.known q hq
    rw [ports_setPort, if_neg]
    · exact hnone
    · rintro rfl
      rw [hport] at hnone
      cases hnone
  · rw [show (m.setPort p port').device = m.device from rfl, h.sessions q]
    constructor
    · rintro ⟨port₀, hq, hopen₀⟩
      by_cases heq : q = p
      · subst heq
        cases hport.symm.trans hq
        exact ⟨port', by rw [ports_setPort, if_pos rfl], hopen.trans hopen₀⟩
      · exact ⟨port₀, by rwa [ports_setPort, if_neg heq], hopen₀⟩
    · rintro ⟨port₁, hq, hopen₁⟩
      obtain ⟨port₀, hq₀, -, hopen₀⟩ := hof hq
      exact ⟨port₀, hq₀, hopen₀ ▸ hopen₁⟩
  · obtain ⟨port₀, hq₀, hlock₀, hopen₀⟩ := hof hq
    exact h.exclusive q port₀ hq₀ (hopen₀ ▸ hopen₁) (hlock₀ ▸ hlock₁)

theorem Shared.congr (h : m.Shared) (hsessions : m'.device.sessions = m.device.sessions) (hports : m'.ports = m.ports)
    (hopened : m'.opened = m.opened) : m'.Shared := by
  refine ⟨fun q hq => ?_, fun q => ?_, fun q port hq => ?_⟩
  · rw [hports]
    exact h.known q (hopened ▸ hq)
  · rw [hsessions, hports]
    exact h.sessions q
  · rw [hsessions]
    exact h.exclusive q port (hports ▸ hq)

theorem Awake.setPort {asleep : List ℕ} (h : m.Awake asleep) (hport : m.ports p = some port)
    (hopen : port'.isOpen = port.isOpen) (hpending : port'.pending = port.pending)
    (hscheduled : port'.scheduled = port.scheduled) : (m.setPort p port').Awake asleep := by
  refine ⟨fun q port₁ request hq hrequest => ?_, fun q port₁ hq hwake => ?_⟩
  · rw [ports_setPort] at hq
    split at hq
    · rename_i heq
      subst heq
      cases hq
      obtain ⟨hopen₁, hlength, hwoken⟩ := h.pending q port request hport (hpending ▸ hrequest)
      exact ⟨hopen.trans hopen₁, hlength, fun hq hbytes => hscheduled.trans (hwoken hq hbytes)⟩
    · exact h.pending q port₁ request hq hrequest
  · rw [ports_setPort] at hq
    split at hq
    · rename_i heq
      subst heq
      cases hq
      exact h.scheduled q port hport (hscheduled ▸ hwake)
    · exact h.scheduled q port₁ hq hwake

theorem Awake.setIdle {asleep : List ℕ} (h : m.Awake asleep) (hport : m.ports p = some port) (hnone : port'.pending = none)
    (hscheduled : port'.scheduled = true → port.scheduled = true) :
    (m.setPort p port').Awake (asleep.filter (· != p)) := by
  refine ⟨fun q port₁ request hq hrequest => ?_, fun q port₁ hq hwake => ?_⟩
  · rw [ports_setPort] at hq
    split at hq
    · cases hq
      rw [hnone] at hrequest
      cases hrequest
    · rename_i hne
      obtain ⟨hopen, hlength, hwoken⟩ := h.pending q port₁ request hq hrequest
      refine ⟨hopen, hlength, fun hasleep hbytes => hwoken (fun hmem => hasleep ?_) hbytes⟩
      exact List.mem_filter.2 ⟨hmem, by simpa using hne⟩
  · rw [ports_setPort] at hq
    split at hq
    · rename_i heq
      subst heq
      cases hq
      exact h.scheduled q port hport (hscheduled hwake)
    · exact h.scheduled q port₁ hq hwake

theorem Awake.congr {asleep : List ℕ} (h : m.Awake asleep) (hports : m'.ports = m.ports)
    (hticks : ∀ p, .wake p ∈ m.ticks → .wake p ∈ m'.ticks)
    (hbytes : m'.device.bytes.bytes ≠ [] → m.device.bytes.bytes ≠ []) : m'.Awake asleep := by
  refine ⟨fun q port request hq hrequest => ?_, fun q port hq hwake => ?_⟩
  · rw [hports] at hq
    obtain ⟨hopen, hlength, hwoken⟩ := h.pending q port request hq hrequest
    exact ⟨hopen, hlength, fun hasleep hne => hwoken hasleep (hbytes hne)⟩
  · rw [hports] at hq
    exact hticks q (h.scheduled q port hq hwake)

/-! ### `_wake` and `feed` -/

/-- What `_wake` leaves as it is. -/
structure Wakes (m m' : MockBinding) : Prop where
  device : m'.device = m.device
  pendings : m'.pendings = m.pendings
  reads : m'.reads = m.reads
  shared : m.Shared → m'.Shared

theorem wake_wakes (m : MockBinding) (p : ℕ) : m.Wakes (m.wake p) := by
  unfold wake
  split
  · exact ⟨rfl, rfl, rfl, id⟩
  · rename_i port hport
    split
    · exact ⟨rfl, rfl, rfl, id⟩
    refine ⟨rfl, ?_, rfl, fun h => ?_⟩
    · show (m.setPort p { port with scheduled := true }).pendings = m.pendings
      exact pendings_same _ hport rfl
    · have hset : (m.setPort p { port with scheduled := true }).Shared := h.setPort hport rfl rfl
      exact hset.congr rfl rfl rfl

/-- **A port that is woken** has its tick scheduled, if it needs one. -/
theorem wake_awake {asleep : List ℕ} (h : m.Awake (p :: asleep)) : (m.wake p).Awake asleep := by
  have hawake (hidle : ∀ port request, m.ports p = some port → port.pending = some request → port.scheduled = true) :
      m.Awake asleep := by
    refine ⟨fun q port request hq hrequest => ?_, h.scheduled⟩
    obtain ⟨hopen, hlength, hwoken⟩ := h.pending q port request hq hrequest
    refine ⟨hopen, hlength, fun hasleep hbytes => ?_⟩
    by_cases heq : q = p
    · subst heq
      exact hidle port request hq hrequest
    · exact hwoken (by simp [heq, hasleep]) hbytes
  unfold wake
  split
  · rename_i hnone
    refine hawake fun port request hport => ?_
    rw [hnone] at hport
    cases hport
  · rename_i port hport
    split
    · rename_i hskip
      refine hawake fun port' request hport' hrequest => ?_
      cases hport.symm.trans hport'
      rw [hrequest] at hskip
      exact hskip
    · refine ⟨fun q port' request hq hrequest => ?_, fun q port' hq hwake => ?_⟩
      · change (m.setPort p { port with scheduled := true }).ports q = some port' at hq
        rw [ports_setPort] at hq
        split at hq
        · rename_i heq
          subst heq
          cases hq
          obtain ⟨hopen, hlength, -⟩ := h.pending q port request hport hrequest
          exact ⟨hopen, hlength, fun _ _ => rfl⟩
        · rename_i hne
          obtain ⟨hopen, hlength, hwoken⟩ := h.pending q port' request hq hrequest
          exact ⟨hopen, hlength, fun hasleep => hwoken (by simp [hne, hasleep])⟩
      · show Tick.wake q ∈ m.ticks ++ [.wake p]
        change (m.setPort p { port with scheduled := true }).ports q = some port' at hq
        rw [ports_setPort] at hq
        split at hq
        · rename_i heq
          subst heq
          exact List.mem_append_right _ (List.mem_singleton_self _)
        · exact List.mem_append_left _ (h.scheduled q port' hq hwake)

theorem foldl_wake {ps : List ℕ} (h : m.Awake ps) : (ps.foldl wake m).Awake [] ∧ m.Wakes (ps.foldl wake m) := by
  induction ps generalizing m with
  | nil => exact ⟨h, rfl, rfl, rfl, id⟩
  | cons p ps ih =>
    obtain ⟨hawake, hwakes⟩ := ih (wake_awake h)
    have hfirst := m.wake_wakes p
    exact ⟨hawake, hwakes.device.trans hfirst.device, hwakes.pendings.trans hfirst.pendings,
      hwakes.reads.trans hfirst.reads, fun hs => hwakes.shared (hfirst.shared hs)⟩

/-- **Bytes are fed**, and every read that waits for some is woken. -/
theorem Sound.feed (h : Sound outputs m) (data : Buffer) (out : List Output) (hout : out.filterMap Output.settles = []) :
    Sound (outputs ++ out) (m.feed data) ∧ (m.feed data).device.bytes.bytes = m.device.bytes.bytes ++ data := by
  obtain ⟨hwf, hbytes⟩ := ByteQueue.append_spec h.wf data
  -- the sessions are all the ports that may have a read
  have hasleep : Awake m.device.sessions { m with device := { m.device with bytes := m.device.bytes.append data } } := by
    refine ⟨fun q port request hq hrequest => ?_, h.awake.scheduled⟩
    obtain ⟨hopen, hlength, -⟩ := h.awake.pending q port request hq hrequest
    exact ⟨hopen, hlength, fun hno => absurd ((h.shared.sessions q).2 ⟨port, hq, hopen⟩) hno⟩
  obtain ⟨hawake, hdevice, hpendings, hreads, hshared⟩ := foldl_wake hasleep
  have hfeed : m.feed data =
      m.device.sessions.foldl wake { m with device := { m.device with bytes := m.device.bytes.append data } } := rfl
  rw [← hfeed] at hawake hdevice hpendings hreads hshared
  refine ⟨⟨?_, ?_, hshared (h.shared.congr rfl rfl rfl), hawake, ?_⟩, ?_⟩
  · rw [hdevice]
    exact hwf
  · rw [hdevice]
    exact h.progress
  · rw [hpendings, hreads, List.filterMap_append, hout, List.append_nil]
    exact h.reads
  · rw [hdevice]
    exact hbytes

/-! ### Steps that leave the reads alone -/

theorem Sound.emits (h : Sound outputs m) (hout : out.filterMap Output.settles = []) : Sound (outputs ++ out) m where
  wf := h.wf
  progress := h.progress
  shared := h.shared
  awake := h.awake
  reads := by
    rw [List.filterMap_append, hout, List.append_nil]
    exact h.reads

theorem Sound.setPort (h : Sound outputs m) (hport : m.ports p = some port) (hlock : port'.lock = port.lock)
    (hopen : port'.isOpen = port.isOpen) (hpending : port'.pending = port.pending)
    (hscheduled : port'.scheduled = port.scheduled) : Sound outputs (m.setPort p port') where
  wf := h.wf
  progress := h.progress
  shared := h.shared.setPort hport hlock hopen
  awake := h.awake.setPort hport hopen hpending hscheduled
  reads := by
    rw [pendings_same _ hport hpending]
    exact h.reads

theorem Sound.ticks (h : Sound outputs m) {ticks : List Tick} (hticks : ∀ p, .wake p ∈ m.ticks → .wake p ∈ ticks) :
    Sound outputs { m with ticks := ticks } where
  wf := h.wf
  progress := h.progress
  shared := h.shared.congr rfl rfl rfl
  awake := h.awake.congr rfl hticks id
  reads := h.reads

theorem Sound.schedule (h : Sound outputs m) (tick : Tick) : Sound outputs (m.schedule tick) :=
  h.ticks fun _ => List.mem_append_left _

theorem Sound.clear (h : Sound outputs m) :
    Sound outputs { m with device := { m.device with bytes := m.device.bytes.clear } } where
  wf := ByteQueue.wf_empty
  progress := h.progress
  shared := h.shared.congr rfl rfl rfl
  awake := h.awake.congr rfl (fun _ => id) fun hne => absurd rfl hne
  reads := h.reads

/-- **A session is opened**, alone if it is locked. -/
theorem Sound.opened (h : Sound outputs m) {lock : Bool}
    (hunlocked : ∀ q port, q ∈ m.device.sessions → m.ports q = some port → port.lock = false)
    (halone : lock = true → m.device.sessions = []) {ticks : List Tick}
    (hticks : ∀ p, .wake p ∈ m.ticks → .wake p ∈ ticks) :
    Sound outputs { m with
      opened := m.opened + 1, ports := Function.update m.ports m.opened (some { lock }), ticks := ticks
      device := { m.device with sessions := m.device.sessions ++ [m.opened] } } := by
  have hnew := h.shared.known m.opened le_rfl
  have hports (q : ℕ) : Function.update m.ports m.opened (some { lock }) q = if q = m.opened then some { lock } else m.ports q :=
    Function.update_apply _ _ _ _
  refine ⟨h.wf, h.progress, ⟨fun q hq => ?_, fun q => ?_, fun q port hq hopen hlock => ?_⟩,
    ⟨fun q port request hq hrequest => ?_, fun q port hq hwake => ?_⟩, ?_⟩
  · have hq : m.opened + 1 ≤ q := hq
    show Function.update m.ports m.opened (some { lock }) q = none
    rw [hports, if_neg (by omega)]
    exact h.shared.known q (by omega)
  · show q ∈ m.device.sessions ++ [m.opened] ↔ ∃ port, Function.update m.ports m.opened (some { lock }) q = some port ∧ _
    rw [hports, List.mem_append, List.mem_singleton]
    by_cases heq : q = m.opened
    · rw [if_pos heq]
      exact ⟨fun _ => ⟨_, rfl, rfl⟩, fun _ => .inr heq⟩
    · rw [if_neg heq, or_iff_left heq]
      exact h.shared.sessions q
  · change Function.update m.ports m.opened (some { lock }) q = some port at hq
    show m.device.sessions ++ [m.opened] = [q]
    rw [hports] at hq
    split at hq
    · rename_i heq
      cases hq
      rw [halone hlock, heq]
      rfl
    · have hmem := (h.shared.sessions q).2 ⟨port, hq, hopen⟩
      rw [hunlocked q port hmem hq] at hlock
      cases hlock
  · change Function.update m.ports m.opened (some { lock }) q = some port at hq
    rw [hports] at hq
    split at hq
    · cases hq
      cases hrequest
    · exact h.awake.pending q port request hq hrequest
  · change Function.update m.ports m.opened (some { lock }) q = some port at hq
    rw [hports] at hq
    split at hq
    · cases hq
      cases hwake
    · exact hticks q (h.awake.scheduled q port hq hwake)
  · have hsame : (m.setPort m.opened { lock }).pendings = m.pendings := by
      funext q
      rw [pendings_setPort]
      split
      · rename_i heq
        subst heq
        unfold pendings
        rw [hnew]
        rfl
      · rfl
    have hreads := h.reads
    rw [← hsame] at hreads
    exact hreads

theorem sound_openPort (h : Sound outputs m) (lock : Bool) :
    Sound (outputs ++ (m.openPort lock).2) (m.openPort lock).1 := by
  unfold openPort
  dsimp only
  split
  · exact h.emits rfl
  · rename_i hfree
    rw [Bool.not_eq_true, Bool.or_eq_false_iff, List.any_eq_false] at hfree
    obtain ⟨hunlocked, halone⟩ := hfree
    have hunlocked' : ∀ q port, q ∈ m.device.sessions → m.ports q = some port → port.lock = false := by
      intro q port hq hport
      have hno := hunlocked q hq
      rw [hport] at hno
      simpa using hno
    have halone' : lock = true → m.device.sessions = [] := by
      intro hlock
      rw [hlock, Bool.true_and] at halone
      simpa using halone
    exact Sound.emits (h.opened hunlocked' halone' fun _ => List.mem_append_left _) rfl

/-! ### Reads -/

theorem Sound.refused (h : Sound outputs m) (error : MockError) :
    Sound (outputs ++ [.rejected m.reads error]) { m with reads := m.reads + 1 } where
  wf := h.wf
  progress := h.progress
  shared := h.shared.congr rfl rfl rfl
  awake := h.awake.congr rfl (fun _ => id) id
  reads := by
    rw [List.filterMap_append]
    exact h.reads.refuse

/-- **A read is pending**, and its port is woken. -/
theorem Sound.pends (h : Sound outputs m) (hport : m.ports p = some port) (hopen : port.isOpen = true)
    {offset length : ℕ} (hlength : 1 ≤ length) :
    Sound outputs (({ m with reads := m.reads + 1 }.setPort p
      { port with pending := some ⟨m.reads, offset, length⟩ }).wake p) := by
  let m₁ : MockBinding := { m with reads := m.reads + 1 }.setPort p { port with pending := some ⟨m.reads, offset, length⟩ }
  have hports : ∀ q, m₁.ports q = if q = p then some { port with pending := some ⟨m.reads, offset, length⟩ } else m.ports q :=
    fun q => ports_setPort
  have hawake : m₁.Awake [p] := by
    refine ⟨fun q port' request hq hrequest => ?_, fun q port' hq hwake => ?_⟩
    · rw [hports] at hq
      split at hq
      · rename_i heq
        cases hq
        cases hrequest
        exact ⟨hopen, hlength, fun hno => absurd (List.mem_singleton.2 heq) hno⟩
      · obtain ⟨hopen', hlength', hwoken⟩ := h.awake.pending q port' request hq hrequest
        exact ⟨hopen', hlength', fun _ => hwoken List.not_mem_nil⟩
    · rw [hports] at hq
      split at hq
      · rename_i heq
        subst heq
        cases hq
        exact h.awake.scheduled q port hport hwake
      · exact h.awake.scheduled q port' hq hwake
  have hshared : m₁.Shared := by
    have hset : (m.setPort p { port with pending := some ⟨m.reads, offset, length⟩ }).Shared := h.shared.setPort hport rfl rfl
    exact hset.congr rfl rfl rfl
  have hheld : Held m₁.pendings m₁.reads (outputs.filterMap Output.settles) := by
    refine h.reads.hold (k := p) fun q => ?_
    exact pendings_setPort
  obtain ⟨hdevice, hpendings, hreads, hwoken⟩ := m₁.wake_wakes p
  refine ⟨?_, ?_, hwoken hshared, wake_awake hawake, ?_⟩
  · show (m₁.wake p).device.bytes.WF
    rw [hdevice]
    exact h.wf
  · show 1 ≤ (m₁.wake p).device.maxReadSize
    rw [hdevice]
    exact h.progress
  · show Held (m₁.wake p).pendings (m₁.wake p).reads _
    rw [hpendings, hreads]
    exact hheld

theorem sound_read (h : Sound outputs m) (hport : m.ports p = some port) (size : ℕ) (offset length : ℤ) :
    Sound (outputs ++ (m.read p port size offset length).2) (m.read p port size offset length).1 := by
  unfold read
  dsimp only
  split
  · exact h.refused _
  · rename_i hrange
    split
    · exact h.refused _
    · rename_i hopen
      split
      · exact h.refused _
      · rw [List.append_nil]
        exact h.pends hport (by simpa using hopen) (by omega)

/-- **A pending read is settled.** -/
theorem Sound.settled (h : Sound outputs m) (hport : m.ports p = some port) {request : Request}
    (hrequest : port.pending = some request) {device : VirtualDevice} {ticks : List Tick}
    (hwf : device.bytes.WF) (hprogress : 1 ≤ device.maxReadSize)
    (hshared : ({ m with device := device, ticks := ticks }.setPort p port').Shared)
    (hawake : ({ m with device := device, ticks := ticks }.setPort p port').Awake []) (hnone : port'.pending = none)
    (hout : out.filterMap Output.settles = [request.promise]) :
    Sound (outputs ++ out) ({ m with device := device, ticks := ticks }.setPort p port') := by
  refine ⟨hwf, hprogress, hshared, hawake, ?_⟩
  rw [List.filterMap_append, hout]
  have hheld : m.pendings p = some request.promise := by
    unfold pendings
    rw [hport, Option.bind_some, hrequest]
    rfl
  refine h.reads.settle hheld fun q => ?_
  rw [pendings_setPort, hnone]
  rfl

/-- **`read` of the device** takes the first bytes, and none only where there are none. -/
theorem read_spec {d : VirtualDevice} (hwf : d.bytes.WF) (hprogress : 1 ≤ d.maxReadSize) {size offset length : ℕ}
    (hlength : 1 ≤ length) (hrange : offset + length ≤ size) :
    ∃ data bytes, d.read size offset length = .ok (data, { d with bytes := bytes }) ∧ bytes.WF ∧
      data ++ bytes.bytes = d.bytes.bytes ∧ (data = [] → bytes.bytes = []) := by
  have hbytes := hwf.length_eq
  unfold VirtualDevice.read
  dsimp only
  by_cases hcount : min (min length d.maxReadSize) d.bytes.length = 0
  · rw [if_pos hcount]
    refine ⟨[], d.bytes, rfl, hwf, rfl, fun _ => List.eq_nil_of_length_eq_zero ?_⟩
    omega
  · rw [if_neg hcount, ByteQueue.peek_spec hwf (Nat.min_le_right _ _)]
    have hcopied : (d.bytes.bytes.take (min (min length d.maxReadSize) d.bytes.length)).take (size - offset) =
        d.bytes.bytes.take (min (min length d.maxReadSize) d.bytes.length) := by
      rw [List.take_take, Nat.min_eq_right]
      omega
    have hlen : (d.bytes.bytes.take (min (min length d.maxReadSize) d.bytes.length)).length =
        min (min length d.maxReadSize) d.bytes.length := by
      rw [List.length_take, ← hbytes]
      omega
    obtain ⟨bytes, hdiscard, hwf', hrest⟩ := ByteQueue.discard_spec hwf
      (Nat.min_le_right (min length d.maxReadSize) d.bytes.length)
    refine ⟨d.bytes.bytes.take (min (min length d.maxReadSize) d.bytes.length), bytes, ?_, hwf', ?_, fun hnil => ?_⟩
    · simp only [bind, Except.bind, hcopied, hlen, hdiscard]
      rfl
    · rw [hrest, List.take_append_drop]
    · rw [hnil] at hlen
      exact absurd hlen.symm hcount

/-- The tick of a port has run, and its read is settled, or there is nothing for it. -/
theorem Awake.woken (port' : MockPortBinding) (h : m.Awake []) (hport : m.ports p = some port)
    (hopen : port'.isOpen = port.isOpen)
    (hidle : port'.scheduled = false) {device : VirtualDevice}
    (hstay : ∀ request, port'.pending = some request → port.pending = some request ∧ device.bytes.bytes = [])
    (hbytes : device.bytes.bytes ≠ [] → m.device.bytes.bytes ≠ []) :
    ({ m with device := device, ticks := m.ticks.erase (.wake p) }.setPort p port').Awake [] := by
  refine ⟨fun q port₁ request hq hrequest => ?_, fun q port₁ hq hwake => ?_⟩
  · rw [ports_setPort] at hq
    split at hq
    · rename_i heq
      subst heq
      cases hq
      obtain ⟨hbefore, hempty⟩ := hstay request hrequest
      obtain ⟨hopen₁, hlength, -⟩ := h.pending q port request hport hbefore
      exact ⟨hopen.trans hopen₁, hlength, fun _ hne => absurd hempty hne⟩
    · obtain ⟨hopen₁, hlength, hwoken⟩ := h.pending q port₁ request hq hrequest
      exact ⟨hopen₁, hlength, fun hno hne => hwoken hno (hbytes hne)⟩
  · rw [ports_setPort] at hq
    split at hq
    · cases hq
      rw [hidle] at hwake
      cases hwake
    · rename_i hne
      refine (List.mem_erase_of_ne ?_).2 (h.scheduled q port₁ hq hwake)
      rintro ⟨⟩
      exact hne rfl

/-- The bytes a step returns and those it leaves are those there were, and those it was fed. -/
def Conserves (m m' : MockBinding) (out : List Output) (fed : Buffer) : Prop :=
  out.flatMap Output.data ++ m'.device.bytes.bytes = m.device.bytes.bytes ++ fed

/-- **The tick of `_wake`** settles the read, or there are no bytes. -/
theorem sound_wakeTick (h : Sound outputs m) (hport : m.ports p = some port) (size : ℕ) :
    ∃ m' out, { m with ticks := m.ticks.erase (.wake p) }.wakeTick p port size = (m', out) ∧ Sound (outputs ++ out) m' ∧
      Conserves m m' out [] ∧ ∀ r error, .rejected r error ∈ out → m'.device.bytes = m.device.bytes := by
  have hshared {device : VirtualDevice} (hsessions : device.sessions = m.device.sessions) {port' : MockPortBinding}
      (hlock : port'.lock = port.lock) (hopen : port'.isOpen = port.isOpen) :
      ({ m with device := device, ticks := m.ticks.erase (.wake p) }.setPort p port').Shared := by
    have hmoved : Shared { m with device := device, ticks := m.ticks.erase (.wake p) } := h.shared.congr hsessions rfl rfl
    exact hmoved.setPort hport hlock hopen
  -- the read stays where it is
  have hstays {device : VirtualDevice} (hwf : device.bytes.WF) (hprogress : 1 ≤ device.maxReadSize)
      (hsessions : device.sessions = m.device.sessions)
      (hempty : ∀ request, port.pending = some request → device.bytes.bytes = [])
      (hbytes : device.bytes.bytes ≠ [] → m.device.bytes.bytes ≠ []) :
      Sound outputs ({ m with device := device, ticks := m.ticks.erase (.wake p) }.setPort p
        { port with scheduled := false }) := by
    refine ⟨hwf, hprogress, hshared hsessions rfl rfl, ?_, ?_⟩
    · exact h.awake.woken { port with scheduled := false } hport rfl rfl
        (fun request hrequest => ⟨hrequest, hempty request hrequest⟩) hbytes
    · have hreads := h.reads
      rw [← pendings_same { port with scheduled := false } hport rfl] at hreads
      exact hreads
  unfold wakeTick
  dsimp only
  cases hrequest : port.pending with
  | none =>
    dsimp only
    refine ⟨_, [], rfl, ?_, by simp [Conserves, setPort], nofun⟩
    rw [List.append_nil, ← hrequest]
    exact hstays h.wf h.progress rfl (fun request hno => by rw [hrequest] at hno; cases hno) id
  | some request =>
    obtain ⟨-, hlength, -⟩ := h.awake.pending p port request hport hrequest
    -- the read is settled, and leaves its port
    have hsettles {device : VirtualDevice} {out : List Output} (hwf : device.bytes.WF) (hprogress : 1 ≤ device.maxReadSize)
        (hsessions : device.sessions = m.device.sessions) (hbytes : device.bytes.bytes ≠ [] → m.device.bytes.bytes ≠ [])
        (hout : out.filterMap Output.settles = [request.promise]) :
        Sound (outputs ++ out) ({ m with device := device, ticks := m.ticks.erase (.wake p) }.setPort p
          { port with pending := none, scheduled := false }) :=
      h.settled hport hrequest hwf hprogress (hshared hsessions rfl rfl)
        (h.awake.woken { port with pending := none, scheduled := false } hport rfl rfl nofun hbytes) rfl hout
    dsimp only
    by_cases hrange : request.offset + request.length > size
    · rw [if_pos hrange]
      exact ⟨_, _, rfl, hsettles h.wf h.progress rfl id rfl, by simp [Conserves, Output.data, setPort],
        fun _ _ _ => rfl⟩
    · rw [if_neg hrange]
      obtain ⟨data, bytes, hread, hwf, hbytes, hempty⟩ := read_spec h.wf h.progress hlength (not_lt.1 hrange)
      rw [hread]
      dsimp only
      by_cases hdata : data = []
      · rw [if_pos hdata]
        have hsame : bytes.bytes = m.device.bytes.bytes := by rw [← hbytes, hdata, List.nil_append]
        refine ⟨_, [], rfl, ?_, by simp [Conserves, setPort, hsame], nofun⟩
        rw [List.append_nil, ← hrequest]
        exact hstays hwf h.progress rfl (fun _ _ => hempty hdata) fun hne => hsame ▸ hne
      · rw [if_neg hdata]
        refine ⟨_, _, rfl, hsettles hwf h.progress rfl (fun hne hnil => hne ?_) rfl, ?_, ?_⟩
        · rw [hnil] at hbytes
          exact (List.append_eq_nil_iff.1 hbytes).2
        · show [Output.resolved request.promise data].flatMap Output.data ++ bytes.bytes = m.device.bytes.bytes ++ []
          rw [List.append_nil, ← hbytes]
          simp [Output.data]
        · intro r error hmem
          cases List.mem_singleton.1 hmem

/-! ### `close` -/

theorem Shared.leave (h : m.Shared) (hport : m.ports p = some port) (hclosed : port'.isOpen = false) :
    ((m.setPort p port').leave p).Shared := by
  have hports (q : ℕ) : ((m.setPort p port').leave p).ports q = if q = p then some port' else m.ports q := ports_setPort
  have hsessions : ((m.setPort p port').leave p).device.sessions = m.device.sessions.filter (· != p) := rfl
  refine ⟨fun q hq => ?_, fun q => ?_, fun q port₁ hq hopen hlock => ?_⟩
  · have hnone := h.known q hq
    rw [hports, if_neg]
    · exact hnone
    · rintro rfl
      rw [hport] at hnone
      cases hnone
  · rw [hsessions, hports, List.mem_filter, bne_iff_ne]
    by_cases heq : q = p
    · rw [if_pos heq]
      constructor
      · rintro ⟨-, hne⟩
        exact absurd heq hne
      · rintro ⟨port₁, hq, hopen⟩
        cases hq
        rw [hclosed] at hopen
        cases hopen
    · rw [if_neg heq, and_iff_left heq]
      exact h.sessions q
  · rw [hports] at hq
    split at hq
    · cases hq
      rw [hclosed] at hopen
      cases hopen
    · rename_i hne
      rw [hsessions, h.exclusive q port₁ hq hopen hlock]
      simp [hne]

/-- The last session is closed, or a flush runs: the queue is cleared. -/
def Clears (m : MockBinding) : Event → Prop
  | .close p => p ∈ m.device.sessions ∧ ∀ q ∈ m.device.sessions, q = p
  | .tick (.flush _) _ => True
  | _ => False

/-- What a step keeps. -/
def Keeps (outputs : List Output) (m m' : MockBinding) (out : List Output) (e : Event) : Prop :=
  Sound (outputs ++ out) m' ∧
    (¬ m.Clears e → Conserves m m' out (m.feeds e) ∧ ∀ r error, .rejected r error ∈ out → m'.device.bytes = m.device.bytes)

theorem Keeps.of_sound {e : Event} (h : Sound (outputs ++ out) m') (hbytes : m'.device.bytes = m.device.bytes)
    (hdata : out.flatMap Output.data = []) (hfeeds : m.feeds e = []) : Keeps outputs m m' out e := by
  refine ⟨h, fun _ => ⟨?_, fun _ _ _ => hbytes⟩⟩
  unfold Conserves
  rw [hdata, hfeeds, hbytes, List.append_nil]
  rfl

theorem Keeps.of_feed {e : Event} (h : Sound outputs m) {data : Buffer} (hfeeds : m.feeds e = data) :
    Keeps outputs m (m.feed data) [] e := by
  obtain ⟨hsound, hbytes⟩ := h.feed data [] rfl
  refine ⟨hsound, fun _ => ⟨?_, fun r error hmem => absurd hmem List.not_mem_nil⟩⟩
  unfold Conserves
  rw [hfeeds, hbytes]
  rfl

theorem keeps_closePort (h : Sound outputs m) (hport : m.ports p = some port) :
    Keeps outputs m (m.closePort p port).1 (m.closePort p port).2 (.close p) := by
  unfold closePort
  split
  · exact .of_sound (h.emits rfl) rfl rfl rfl
  · rename_i hopen
    have hopen : port.isOpen = true := by simpa using hopen
    let port' : MockPortBinding := { port with isOpen := false, pending := none }
    have hmem : p ∈ m.device.sessions := (h.shared.sessions p).2 ⟨port, hport, hopen⟩
    have hwf : ((m.setPort p port').leave p).device.bytes.WF := by
      show (if _ then _ else _ : ByteQueue).WF
      split
      · exact ByteQueue.wf_empty
      · exact h.wf
    have hfewer : ((m.setPort p port').leave p).device.bytes.bytes ≠ [] → m.device.bytes.bytes ≠ [] := by
      show (if _ then _ else _ : ByteQueue).bytes ≠ [] → _
      split
      · exact fun hne => absurd rfl hne
      · exact id
    have hawake : ((m.setPort p port').leave p).Awake [] := by
      have hset : (m.setPort p port').Awake [] := h.awake.setIdle hport rfl id
      exact hset.congr rfl (fun _ => id) hfewer
    have hshared : ((m.setPort p port').leave p).Shared := h.shared.leave hport rfl
    have hbytes : ¬ m.Clears (.close p) → ((m.setPort p port').leave p).device.bytes = m.device.bytes := by
      intro hno
      refine if_neg fun hempty => hno ⟨hmem, fun q hq => ?_⟩
      by_contra hne
      have hnil : m.device.sessions.filter (· != p) = [] := List.isEmpty_iff.1 hempty
      have hleft : q ∈ m.device.sessions.filter (· != p) := List.mem_filter.2 ⟨hq, by simpa using hne⟩
      rw [hnil] at hleft
      cases hleft
    have hconserves (hno : ¬ m.Clears (.close p)) {out : List Output} (hdata : out.flatMap Output.data = []) :
        Conserves m ((m.setPort p port').leave p) out [] := by
      unfold Conserves
      rw [hdata, hbytes hno, List.append_nil]
      rfl
    cases hrequest : port.pending with
    | none =>
      refine ⟨⟨hwf, h.progress, hshared, hawake, ?_⟩, fun hno => ⟨hconserves hno rfl, fun _ _ _ => hbytes hno⟩⟩
      have hreads := h.reads
      rw [← pendings_same port' hport hrequest.symm] at hreads
      rw [List.filterMap_append]
      exact (List.append_nil (outputs.filterMap Output.settles)).symm ▸ hreads
    | some request =>
      refine ⟨⟨hwf, h.progress, hshared, hawake, ?_⟩, fun hno => ⟨hconserves hno rfl, fun _ _ _ => hbytes hno⟩⟩
      have hheld : m.pendings p = some request.promise := by
        unfold pendings
        rw [hport, Option.bind_some, hrequest]
        rfl
      rw [List.filterMap_append]
      refine h.reads.settle hheld fun q => ?_
      show (m.setPort p port').pendings q = _
      exact pendings_setPort

/-! ### Steps -/

theorem keeps_openPort (h : Sound outputs m) (lock : Bool) :
    Keeps outputs m (m.openPort lock).1 (m.openPort lock).2 (.open lock) := by
  refine .of_sound (sound_openPort h lock) ?_ ?_ rfl
  all_goals
    unfold openPort
    dsimp only
    split <;> rfl

theorem keeps_read (h : Sound outputs m) (hport : m.ports p = some port) (size : ℕ) (offset length : ℤ) :
    Keeps outputs m (m.read p port size offset length).1 (m.read p port size offset length).2
      (.read p size offset length) := by
  refine .of_sound (sound_read h hport size offset length) ?_ ?_ rfl
  all_goals
    unfold read
    dsimp only
    repeat' split
  all_goals
    first
    | rfl
    | exact congrArg VirtualDevice.bytes (wake_wakes _ p).device

theorem feeds_late {data : Buffer} (hport : m.ports p = some port) :
    (if (m.ports p).any (·.isOpen) = true then data else []) = if port.isOpen = true then data else [] := by
  rw [hport, Option.any_some]

theorem keeps_emitData {data : Buffer} {e : Event} (h : Sound outputs m)
    (hfeeds : m.feeds e = if port.isOpen = true then data else []) :
    Keeps outputs m (m.emitData port data).1 (m.emitData port data).2 e := by
  unfold emitData
  split
  · rename_i hclosed
    rw [Bool.not_eq_true'] at hclosed
    rw [hclosed] at hfeeds
    exact .of_sound (h.emits rfl) rfl rfl hfeeds
  · rename_i hopen
    rw [if_pos (by simpa using hopen)] at hfeeds
    exact .of_feed h hfeeds

theorem keeps_late {data : Buffer} {e : Event} (h : Sound outputs m)
    (hfeeds : m.feeds e = if port.isOpen = true then data else [])
    (hstep : (if port.isOpen then m.emitData port data else (m, [])) = (m', out)) : Keeps outputs m m' out e := by
  split at hstep
  · have hkeeps := keeps_emitData h hfeeds
    rwa [hstep] at hkeeps
  · rename_i hclosed
    cases hstep
    exact .of_sound (h.emits rfl) rfl rfl (hfeeds.trans (if_neg hclosed))

theorem Keeps.of_port {e : Event} (h : Sound outputs m) (hport : m.ports p = some port) (port' : MockPortBinding)
    (hlock : port'.lock = port.lock) (hopen : port'.isOpen = port.isOpen) (hpending : port'.pending = port.pending)
    (hscheduled : port'.scheduled = port.scheduled) (ticks : List Tick) (out : List Output)
    (hsettles : out.filterMap Output.settles = []) (hdata : out.flatMap Output.data = []) (hfeeds : m.feeds e = []) :
    Keeps outputs m { m.setPort p port' with ticks := m.ticks ++ ticks } out e :=
  .of_sound (((h.setPort hport hlock hopen hpending hscheduled).ticks fun _ => List.mem_append_left _).emits hsettles) rfl
    hdata hfeeds

theorem keeps_writeTick (h : Sound outputs m) (hport : m.ports p = some port) (data : Buffer) {e : Event}
    (hfeeds : m.feeds e = []) :
    Keeps outputs m (m.writeTick p port data).1 (m.writeTick p port data).2 e := by
  unfold writeTick
  dsimp only
  split
  · have hkeeps := Keeps.of_port (e := e) h hport { port with writeOperation := some .settled } rfl rfl rfl rfl []
      [.wrote p (.error .canceled)] rfl rfl hfeeds
    rwa [List.append_nil] at hkeeps
  · generalize (if m.device.record = true then port.recorded ++ [data] else port.recorded) = recorded
    have hkeeps := Keeps.of_port (e := e) h hport
      { port with writeOperation := some .settled, lastWrite := some data, recorded := recorded } rfl rfl rfl rfl
    split
    · exact hkeeps [.echo p data] [.wrote p (.ok ())] rfl rfl hfeeds
    · have hquiet := hkeeps [] [.wrote p (.ok ())] rfl rfl hfeeds
      rwa [List.append_nil] at hquiet

theorem keeps_runTick (h : Sound outputs m) {tick : Tick} {size : ℕ}
    (hstep : { m with ticks := m.ticks.erase tick }.runTick tick size = some (m', out)) :
    Keeps outputs m m' out (.tick tick size) := by
  -- any other tick leaves those of `_wake` scheduled
  have herase (hother : ∀ q, Tick.wake q ≠ tick) : Sound outputs { m with ticks := m.ticks.erase tick } :=
    h.ticks fun q hmem => (List.mem_erase_of_ne (hother q)).2 hmem
  cases tick with
  | ready p data =>
    obtain ⟨port, hport, heq⟩ := Option.map_eq_some_iff.1 (show (m.ports p).map _ = _ from hstep)
    have hkeeps := keeps_late (e := .tick (.ready p data) size) (herase (by rintro q ⟨⟩)) (feeds_late hport) heq
    exact hkeeps
  | echo p data =>
    obtain ⟨port, hport, heq⟩ := Option.map_eq_some_iff.1 (show (m.ports p).map _ = _ from hstep)
    have hkeeps := keeps_late (e := .tick (.echo p data) size) (herase (by rintro q ⟨⟩)) (feeds_late hport) heq
    exact hkeeps
  | wake p =>
    obtain ⟨port, hport, heq⟩ := Option.map_eq_some_iff.1 (show (m.ports p).map _ = _ from hstep)
    obtain ⟨m₁, out₁, hrun, hsound, hconserves, hrejected⟩ := sound_wakeTick h hport size
    cases heq.symm.trans hrun
    exact ⟨hsound, fun _ => ⟨hconserves, hrejected⟩⟩
  | write p data =>
    obtain ⟨port, hport, heq⟩ := Option.map_eq_some_iff.1 (show (m.ports p).map _ = _ from hstep)
    have hkeeps := keeps_writeTick (herase (by rintro q ⟨⟩)) hport data (e := .tick (.write p data) size) rfl
    rwa [heq] at hkeeps
  | flush p =>
    obtain ⟨port, hport, heq⟩ := Option.map_eq_some_iff.1 (show (m.ports p).map _ = _ from hstep)
    have hsound := herase (by rintro q ⟨⟩)
    split at heq
    · cases heq
      exact .of_sound (hsound.emits rfl) rfl rfl rfl
    · cases heq
      exact ⟨hsound.clear.emits rfl, fun hno => absurd trivial hno⟩

/-- **The step lemma.** -/
theorem keeps_step (h : Sound outputs m) {e : Event} (hstep : m.step e = some (m', out)) : Keeps outputs m m' out e := by
  cases e with
  | «open» lock =>
    have heq : m.openPort lock = (m', out) := Option.some.inj hstep
    have hkeeps := keeps_openPort h lock
    rwa [heq] at hkeeps
  | close p =>
    obtain ⟨port, hport, heq⟩ := Option.map_eq_some_iff.1 (show (m.ports p).map _ = _ from hstep)
    have hkeeps := keeps_closePort h hport
    rwa [heq] at hkeeps
  | read p size offset length =>
    obtain ⟨port, hport, heq⟩ := Option.map_eq_some_iff.1 (show (m.ports p).map _ = _ from hstep)
    have hkeeps := keeps_read h hport size offset length
    rwa [heq] at hkeeps
  | emitData p data =>
    obtain ⟨port, hport, heq⟩ := Option.map_eq_some_iff.1 (show (m.ports p).map _ = _ from hstep)
    have hkeeps := keeps_emitData (e := .emitData p data) h (feeds_late hport)
    rwa [heq] at hkeeps
  | feed data =>
    cases hstep
    exact .of_feed h rfl
  | write p data =>
    obtain ⟨port, hport, heq⟩ := Option.map_eq_some_iff.1 (show (m.ports p).map _ = _ from hstep)
    unfold write at heq
    split at heq
    · cases heq
      exact .of_sound (h.emits rfl) rfl rfl rfl
    split at heq
    · cases heq
      exact .of_sound (h.emits rfl) rfl rfl rfl
    · cases heq
      exact .of_port h hport { port with writeOperation := some .running } rfl rfl rfl rfl [.write p data] [] rfl rfl rfl
  | written p =>
    obtain ⟨port, hport, heq⟩ := Option.bind_eq_some_iff.1 (show (m.ports p).bind _ = _ from hstep)
    split at heq
    · cases heq
      have hkeeps := Keeps.of_port (e := .written p) h hport { port with writeOperation := none } rfl rfl rfl rfl []
        [] rfl rfl rfl
      rwa [List.append_nil] at hkeeps
    · cases heq
  | flush p =>
    obtain ⟨port, hport, heq⟩ := Option.map_eq_some_iff.1 (show (m.ports p).map _ = _ from hstep)
    split at heq
    · cases heq
      exact .of_sound (h.emits rfl) rfl rfl rfl
    · cases heq
      exact .of_sound ((h.schedule _).emits rfl) rfl rfl rfl
  | tick tick size =>
    rcases Option.ite_none_right_eq_some.1 (show (if tick ∈ m.ticks then _ else none) = _ from hstep) with ⟨-, hrun⟩
    exact keeps_runTick h hrun

end MockBinding

/-! ### Runs -/

namespace MockBinding

theorem sound_create {echo record : Bool} {maxReadSize : ℤ} {readyData : Option Buffer} {device : VirtualDevice}
    (h : VirtualDevice.create echo record maxReadSize readyData = .ok device) :
    Sound [] { device := device } ∧ device.bytes.bytes = [] := by
  obtain ⟨value, hvalue, heq⟩ := Parsers.bind_eq_ok h
  obtain rfl := Except.ok.inj heq
  obtain ⟨-, hmin, -⟩ := Parsers.integer_eq_ok hvalue
  have hprogress : 1 ≤ value.toNat := by omega
  refine ⟨⟨ByteQueue.wf_empty, hprogress, ⟨fun _ _ => rfl, fun q => ⟨fun hmem => absurd hmem List.not_mem_nil, ?_⟩, ?_⟩,
    ⟨?_, ?_⟩, .nil⟩, rfl⟩
  · rintro ⟨port, hport, -⟩
    cases hport
  all_goals
    intro q port
  · intro hport
    cases hport
  · intro request hport
    cases hport
  · intro hport
    cases hport

theorem Conserves.append {fed before data : Buffer} (h : Conserves m m' out fed)
    (hrun : data ++ m.device.bytes.bytes = before) :
    (data ++ out.flatMap Output.data) ++ m'.device.bytes.bytes = before ++ fed := by
  unfold Conserves at h
  rw [List.append_assoc, h, ← List.append_assoc, hrun]

end MockBinding

open MockBinding in
/-- **The mock device neither loses bytes nor misses a wake-up.**  In every run, with calls and scheduled callbacks in
any order: the bytes that reads returned, and those in the queue, are the bytes fed, if nothing cleared the queue; a read
that is rejected consumes nothing; a pending read that bytes wait for has its tick scheduled; no read is settled twice;
and a session that is open with `lock` is the only one. -/
theorem mock_conserves {echo record : Bool} {maxReadSize : ℤ} {readyData : Option Buffer} {device : VirtualDevice}
    (hdevice : VirtualDevice.create echo record maxReadSize readyData = .ok device) {events : List Event}
    {m : MockBinding} {outputs : List Output} (hrun : mock.run { device := device } events = some (m, outputs)) :
    (mock.Along (fun _ _ m e => ¬ m.Clears e) { device := device } events →
      outputs.flatMap Output.data ++ m.device.bytes.bytes = mock.collect feeds { device := device } events) ∧
    (∀ e m' out r error, mock.step m e = some (m', out) → ¬ m.Clears e → .rejected r error ∈ out →
      m'.device.bytes = m.device.bytes) ∧
    (∀ p port, m.ports p = some port → port.isOpen = true → port.pending.isSome = true → m.device.bytes.bytes ≠ [] →
      .wake p ∈ m.ticks) ∧
    (outputs.filterMap Output.settles).Nodup ∧
    ∀ p port, m.ports p = some port → port.isOpen = true → port.lock = true →
      m.device.sessions = [p] ∧ ∀ q port', m.ports q = some port' → port'.isOpen = true → q = p := by
  obtain ⟨hstart, hempty⟩ := sound_create hdevice
  have hsound : Sound outputs m :=
    Machine.run_rule_all (fun _ outputs m => Sound outputs m) hstart
      (fun _ _ _ _ _ _ h hstep => (keeps_step h hstep).1) hrun
  refine ⟨fun hkept => ?_, fun e m' out r error hstep hno hmem => ((keeps_step hsound hstep).2 hno).2 r error hmem,
    fun p port hport hopen hpending hbytes => ?_, hsound.reads.nodup, fun p port hport hopen hlock => ?_⟩
  · refine (Machine.run_rule (fun pre outputs m => mock.run { device := device } pre = some (m, outputs) ∧
      Sound outputs m ∧ outputs.flatMap Output.data ++ m.device.bytes.bytes = mock.collect feeds { device := device } pre)
      ⟨rfl, hstart, hempty⟩ ?_ hkept hrun).2.2
    rintro pre outputs m e m' out ⟨hrun, h, hfed⟩ hno hstep
    obtain ⟨hsound, hkeeps⟩ := keeps_step h hstep
    rw [List.flatMap_append, Machine.collect_snoc hrun]
    exact ⟨Machine.run_append hrun (Machine.run_singleton hstep), hsound, (hkeeps hno).1.append hfed⟩
  · obtain ⟨request, hrequest⟩ := Option.isSome_iff_exists.1 hpending
    obtain ⟨-, -, hwoken⟩ := hsound.awake.pending p port request hport hrequest
    exact hsound.awake.scheduled p port hport (hwoken List.not_mem_nil hbytes)
  · have halone := hsound.shared.exclusive p port hport hopen hlock
    refine ⟨halone, fun q port' hq hopen' => ?_⟩
    have hmem := (hsound.shared.sessions q).2 ⟨port', hq, hopen'⟩
    rw [halone] at hmem
    exact List.mem_singleton.1 hmem

/-- Two sessions read what is fed: the second read is made while the tick of the first is scheduled, and the buffer of a
third read shrinks before its tick. -/
def twoSessions : List Event :=
  [.open false, .read 0 4 0 3, .open false, .feed [1, 2], .read 1 4 1 3, .emitData 1 [3, 4], .tick (.wake 0) 4,
    .read 0 2 0 2, .tick (.wake 1) 4, .tick (.wake 0) 1]

theorem mock_conserves_twoSessions : ∃ m outputs,
    mock.run { device := { echo := false, record := false, maxReadSize := 3, readyData := none } } twoSessions =
      some (m, outputs) ∧
    outputs.flatMap Output.data ++ m.device.bytes.bytes =
      mock.collect MockBinding.feeds { device := { echo := false, record := false, maxReadSize := 3, readyData := none } }
        twoSessions := by
  have hruns : (mock.run { device := { echo := false, record := false, maxReadSize := 3, readyData := none } }
      twoSessions).isSome = true := by decide
  obtain ⟨⟨m, outputs⟩, hrun⟩ := Option.isSome_iff_exists.1 hruns
  have hdevice : VirtualDevice.create false false 3 none =
      .ok { echo := false, record := false, maxReadSize := 3, readyData := none } := rfl
  refine ⟨m, outputs, hrun, (mock_conserves hdevice hrun).1 ?_⟩
  rintro pre e post heq m outputs - hclears
  have hmem : e ∈ twoSessions := heq ▸ List.mem_append_right _ List.mem_cons_self
  simp only [twoSessions, List.mem_cons, List.not_mem_nil, or_false] at hmem
  rcases hmem with rfl | rfl | rfl | rfl | rfl | rfl | rfl | rfl | rfl | rfl <;> exact hclears

end NodeSerialport.Mock
