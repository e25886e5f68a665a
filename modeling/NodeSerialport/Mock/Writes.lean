import NodeSerialport.Mock.Sessions
import Mathlib.Data.List.Perm.Basic
/-!
# The writes of a mock device

What `write` of a session takes, what lands on the device, and what `recording` and `lastWrite` show of it.

* `MockBinding.takes`, `MockBinding.lands`, `MockBinding.drops` — a write that is taken, lands, or is dropped with its session;
* `Written` — where the writes of a session are; every step keeps it (`written_step`);
* `mock_records` — over every run the writes of a session land in the order in which they were taken, one at a time, and what is
  recorded are those that landed.
-/

namespace NodeSerialport.Mock

open Parsers (Buffer)
open Lib (Machine)

/-- The data of a write of a session. -/
def Tick.write? (p : ℕ) : Tick → Option Buffer
  | .write q data => if q = p then some data else none
  | _ => none

/-- A write of a session that ended well. -/
def Output.reports (p : ℕ) : Output → Bool
  | .wrote q (.ok _) => q = p
  | _ => false

/-- What the writes of a session see of it. -/
def MockPortBinding.core (port : MockPortBinding) : Bool × Option WriteOperation × List Buffer × Option Buffer :=
  (port.isOpen, port.writeOperation, port.recorded, port.lastWrite)

theorem VirtualDevice.read_record {d d' : VirtualDevice} {size offset length : ℕ} {data : Buffer}
    (h : d.read size offset length = .ok (data, d')) : d'.record = d.record := by
  unfold VirtualDevice.read at h
  simp only at h
  split at h
  · cases h
    rfl
  · obtain ⟨view, -, h⟩ := Parsers.bind_eq_ok h
    obtain ⟨bytes, -, h⟩ := Parsers.bind_eq_ok h
    cases h
    rfl

namespace MockBinding

/-- The writes of a session that are scheduled. -/
def writes (m : MockBinding) (p : ℕ) : List Buffer := m.ticks.filterMap (Tick.write? p)

/-- The write an event makes a session take. -/
def takes (p : ℕ) (m : MockBinding) : Event → List Buffer
  | .write q data =>
    if q = p ∧ (m.ports p).any (fun port => port.isOpen && port.writeOperation.isNone) = true then [data] else []
  | _ => []

/-- The write that an event makes land. -/
def lands (p : ℕ) (m : MockBinding) : Event → List Buffer
  | .tick (.write q data) _ => if q = p ∧ (m.ports p).any (·.isOpen) = true then [data] else []
  | _ => []

/-- The write that an event drops, as its session is closed. -/
def drops (p : ℕ) (m : MockBinding) : Event → List Buffer
  | .tick (.write q data) _ => if q = p ∧ (m.ports p).any (·.isOpen) = false then [data] else []
  | _ => []

/-- What the device shows of the writes of a session. -/
structure Shows (done dropped writes : List Buffer) (record : Bool) (port : MockPortBinding) : Prop where
  running : writes ≠ [] → port.writeOperation = some .running
  isOpen : port.isOpen = true → dropped = []
  recorded : port.recorded = if record then done else []
  lastWrite : port.lastWrite = done.getLast?

/-- **Where the writes of a session are**: they landed, were dropped, or are scheduled, one at most. -/
structure Written (p : ℕ) (sent done dropped : List Buffer) (m : MockBinding) : Prop where
  order : sent = done ++ dropped ++ m.writes p
  single : (dropped ++ m.writes p).length ≤ 1
  known : m.opened ≤ p → m.ports p = none
  fresh : m.ports p = none → done = [] ∧ dropped = [] ∧ m.writes p = []
  shows : ∀ port, m.ports p = some port → Shows done dropped (m.writes p) m.device.record port

/-- What is the same to the writes of a session. -/
structure Same (p : ℕ) (m m' : MockBinding) : Prop where
  ports : (m'.ports p).map (·.core) = (m.ports p).map (·.core)
  writes : m'.writes p = m.writes p
  record : m'.device.record = m.device.record
  opened : m.opened ≤ m'.opened

variable {m m' m₁ : MockBinding} {p q : ℕ} {port port' : MockPortBinding} {sent done dropped : List Buffer} {out : List Output}

theorem Shows.core {record : Bool} {writes : List Buffer} (h : Shows done dropped writes record port)
    (hcore : port'.core = port.core) : Shows done dropped writes record port' := by
  obtain ⟨hopen, hcore⟩ := Prod.mk.inj hcore
  obtain ⟨hoperation, hcore⟩ := Prod.mk.inj hcore
  obtain ⟨hrecorded, hlast⟩ := Prod.mk.inj hcore
  exact ⟨fun hne => hoperation.trans (h.running hne), fun ho => h.isOpen (hopen.symm.trans ho), hrecorded.trans h.recorded,
    hlast.trans h.lastWrite⟩

namespace Same

theorem refl (m : MockBinding) : Same p m m := ⟨rfl, rfl, rfl, le_rfl⟩

theorem trans (h₁ : Same p m m₁) (h₂ : Same p m₁ m') : Same p m m' :=
  ⟨h₂.ports.trans h₁.ports, h₂.writes.trans h₁.writes, h₂.record.trans h₁.record, h₁.opened.trans h₂.opened⟩

theorem setPort (hport : m.ports q = some port) (hcore : port'.core = port.core) : Same p m (m.setPort q port') := by
  refine ⟨?_, rfl, rfl, le_rfl⟩
  rw [ports_setPort]
  split
  · rename_i heq
    subst heq
    rw [hport, Option.map_some, Option.map_some, hcore]
  · rfl

theorem setOther (hne : q ≠ p) : Same p m (m.setPort q port') := by
  refine ⟨?_, rfl, rfl, le_rfl⟩
  rw [ports_setPort, if_neg hne.symm]

theorem schedule {tick : Tick} (hother : tick.write? p = none) : Same p m (m.schedule tick) := by
  refine ⟨rfl, ?_, rfl, le_rfl⟩
  show (m.ticks ++ [tick]).filterMap (Tick.write? p) = m.ticks.filterMap (Tick.write? p)
  rw [List.filterMap_append, List.filterMap_cons_none hother, List.filterMap_nil, List.append_nil]

theorem wake : Same p m (m.wake q) := by
  unfold MockBinding.wake
  split
  · exact refl m
  · rename_i port hport
    split
    · exact refl m
    · have hset : Same p m (m.setPort q { port with scheduled := true }) := setPort hport rfl
      exact hset.trans (schedule rfl)

theorem foldl_wake (ps : List ℕ) : Same p m (ps.foldl MockBinding.wake m) := by
  induction ps generalizing m with
  | nil => exact refl m
  | cons q ps ih => exact wake.trans ih

theorem feed (data : Buffer) : Same p m (m.feed data) := by
  have hfed : Same p m { m with device := { m.device with bytes := m.device.bytes.append data } } := ⟨rfl, rfl, rfl, le_rfl⟩
  exact hfed.trans (foldl_wake m.device.sessions)

theorem emitData (data : Buffer) : Same p m (m.emitData port data).1 := by
  unfold MockBinding.emitData
  split
  · exact refl m
  · exact feed data

theorem wakeTick {size : ℕ} (hport : m.ports q = some port) : Same p m (m.wakeTick q port size).1 := by
  unfold MockBinding.wakeTick
  simp only
  split
  · exact setPort hport rfl
  · split
    · exact setPort hport rfl
    · split
      · exact setPort hport rfl
      · rename_i data device hread
        have hdevice : Same p m { m with device := device } := ⟨rfl, rfl, VirtualDevice.read_record hread, le_rfl⟩
        split
        · exact hdevice.trans (setPort hport rfl)
        · exact hdevice.trans (setPort hport rfl)

theorem writeTick (hne : q ≠ p) (data : Buffer) : Same p m (m.writeTick q port data).1 := by
  have hset (port' : MockPortBinding) : Same p m (m.setPort q port') := setOther hne
  unfold MockBinding.writeTick
  simp only
  split
  · exact hset _
  · show Same p m (if m.device.echo then _ else _)
    split
    · exact (hset _).trans (schedule rfl)
    · exact hset _

end Same

theorem Written.same (h : Written p sent done dropped m) (hsame : Same p m m') : Written p sent done dropped m' where
  order := by rw [hsame.writes]; exact h.order
  single := by rw [hsame.writes]; exact h.single
  known hle := by
    have hnone := h.known (hsame.opened.trans hle)
    have hports := hsame.ports
    rw [hnone, Option.map_none, Option.map_eq_none_iff] at hports
    exact hports
  fresh hnone := by
    have hports := hsame.ports
    rw [hnone, Option.map_none, eq_comm, Option.map_eq_none_iff] at hports
    rw [hsame.writes]
    exact h.fresh hports
  shows port' hport' := by
    have hports := hsame.ports
    rw [hport', Option.map_some, eq_comm, Option.map_eq_some_iff] at hports
    obtain ⟨port, hport, hcore⟩ := hports
    rw [hsame.writes, hsame.record]
    exact (h.shows port hport).core hcore.symm

/-! ### Writes -/

theorem Written.close (h : Written p sent done dropped m) (hport : m.ports p = some port)
    (hcore : port'.core = (false, port.writeOperation, port.recorded, port.lastWrite)) :
    Written p sent done dropped (m.setPort p port') := by
  obtain ⟨hopen, hcore⟩ := Prod.mk.inj hcore
  obtain ⟨hoperation, hcore⟩ := Prod.mk.inj hcore
  obtain ⟨hrecorded, hlast⟩ := Prod.mk.inj hcore
  have hshows := h.shows port hport
  refine ⟨h.order, h.single, fun hle => ?_, fun hnone => ?_, fun port₁ hport₁ => ?_⟩
  · have hnone := h.known hle
    rw [hport] at hnone
    cases hnone
  · rw [ports_setPort, if_pos rfl] at hnone
    cases hnone
  · rw [ports_setPort, if_pos rfl] at hport₁
    cases hport₁
    refine ⟨fun hne => hoperation.trans (hshows.running hne), fun ho => ?_, hrecorded.trans hshows.recorded,
      hlast.trans hshows.lastWrite⟩
    rw [hopen] at ho
    cases ho

theorem Written.opens (h : Written p sent done dropped m) (lock : Bool) (ready : List Tick)
    (hready : ready.filterMap (Tick.write? p) = []) :
    Written p sent done dropped
      ({ m with opened := m.opened + 1, ticks := m.ticks ++ ready }.setPort m.opened { lock }) := by
  have hwrites : MockBinding.writes ({ m with opened := m.opened + 1, ticks := m.ticks ++ ready }.setPort m.opened { lock }) p =
      m.writes p := by
    show (m.ticks ++ ready).filterMap (Tick.write? p) = m.ticks.filterMap (Tick.write? p)
    rw [List.filterMap_append, hready, List.append_nil]
  by_cases heq : p = m.opened
  · obtain ⟨rfl, rfl, hnone⟩ := h.fresh (h.known heq.ge)
    refine ⟨by rw [hwrites]; exact h.order, by rw [hwrites]; exact h.single, fun hle => ?_, fun hno => ?_, fun port hport => ?_⟩
    · change m.opened + 1 ≤ p at hle
      omega
    · rw [ports_setPort, if_pos heq] at hno
      cases hno
    · rw [ports_setPort, if_pos heq] at hport
      cases hport
      rw [hwrites, hnone]
      refine ⟨fun hne => absurd rfl hne, fun _ => rfl, ?_, rfl⟩
      split <;> rfl
  · refine h.same ⟨?_, hwrites, rfl, Nat.le_succ _⟩
    rw [ports_setPort, if_neg heq]

/-- **A write is taken.** -/
theorem Written.take (h : Written p sent done dropped m) (hport : m.ports p = some port) (hopen : port.isOpen = true)
    (hidle : port.writeOperation = none) (data : Buffer) : Written p (sent ++ [data]) done dropped
      ((m.setPort p { port with writeOperation := some .running }).schedule (.write p data)) := by
  have hshows := h.shows port hport
  have hdropped : dropped = [] := hshows.isOpen hopen
  have hnone : m.writes p = [] := by
    by_contra hne
    have hrunning := hshows.running hne
    rw [hidle] at hrunning
    cases hrunning
  have hwrites : MockBinding.writes ((m.setPort p { port with writeOperation := some .running }).schedule (.write p data)) p =
      [data] := by
    show (m.ticks ++ [Tick.write p data]).filterMap (Tick.write? p) = [data]
    rw [List.filterMap_append, show m.ticks.filterMap (Tick.write? p) = [] from hnone,
      List.filterMap_cons_some (show Tick.write? p (.write p data) = some data from if_pos rfl), List.filterMap_nil,
      List.nil_append]
  refine ⟨?_, ?_, fun hle => ?_, fun hno => ?_, fun port₁ hport₁ => ?_⟩
  · rw [hwrites, h.order, hnone, List.append_nil]
  · rw [hwrites, hdropped]
    exact le_rfl
  · have hno := h.known hle
    rw [hport] at hno
    cases hno
  · change (m.setPort p _).ports p = none at hno
    rw [ports_setPort, if_pos rfl] at hno
    cases hno
  · change (m.setPort p _).ports p = some port₁ at hport₁
    rw [ports_setPort, if_pos rfl] at hport₁
    cases hport₁
    exact ⟨fun _ => rfl, fun _ => hdropped, hshows.recorded, hshows.lastWrite⟩

theorem Written.settled (h : Written p sent done dropped m) (hport : m.ports p = some port)
    (hsettled : port.writeOperation = some .settled) :
    Written p sent done dropped (m.setPort p { port with writeOperation := none }) := by
  have hshows := h.shows port hport
  have hnone : m.writes p = [] := by
    by_contra hne
    have hrunning := hshows.running hne
    rw [hsettled] at hrunning
    cases hrunning
  refine ⟨h.order, h.single, fun hle => ?_, fun hno => ?_, fun port₁ hport₁ => ?_⟩
  · have hno := h.known hle
    rw [hport] at hno
    cases hno
  · rw [ports_setPort, if_pos rfl] at hno
    cases hno
  · rw [ports_setPort, if_pos rfl] at hport₁
    cases hport₁
    exact ⟨fun hne => absurd hnone hne, hshows.isOpen, hshows.recorded, hshows.lastWrite⟩

/-! ### Ticks -/

theorem filterMap_erase_none {α β : Type} [DecidableEq α] {f : α → Option β} {a : α} (hnone : f a = none) (l : List α) :
    (l.erase a).filterMap f = l.filterMap f := by
  induction l with
  | nil => rfl
  | cons b l ih =>
    by_cases heq : b = a
    · subst heq
      rw [List.erase_cons_head, List.filterMap_cons_none hnone]
    · rw [List.erase_cons_tail (by simpa using heq)]
      cases hb : f b with
      | none => rw [List.filterMap_cons_none hb, List.filterMap_cons_none hb, ih]
      | some c => rw [List.filterMap_cons_some hb, List.filterMap_cons_some hb, ih]

theorem Same.erase {tick : Tick} (hother : tick.write? p = none) : Same p m { m with ticks := m.ticks.erase tick } :=
  ⟨rfl, filterMap_erase_none hother m.ticks, rfl, le_rfl⟩

theorem Written.due (h : Written p sent done dropped m) {data : Buffer} (hmem : Tick.write p data ∈ m.ticks) :
    m.writes p = [data] ∧ dropped = [] ∧ MockBinding.writes { m with ticks := m.ticks.erase (.write p data) } p = [] := by
  have hperm := (List.perm_cons_erase hmem).filterMap (Tick.write? p)
  rw [List.filterMap_cons_some (show Tick.write? p (.write p data) = some data from if_pos rfl)] at hperm
  have hlength := hperm.length_eq
  have hsingle := h.single
  rw [List.length_append] at hsingle
  rw [List.length_cons] at hlength
  change (m.writes p).length = _ at hlength
  have hrest : (m.ticks.erase (.write p data)).filterMap (Tick.write? p) = [] := List.eq_nil_of_length_eq_zero (by omega)
  rw [hrest] at hperm
  exact ⟨List.perm_singleton.1 hperm, List.eq_nil_of_length_eq_zero (by omega), hrest⟩

theorem Written.taken (h : Written p sent done dropped m) (hport : m.ports p = some port) {ticks : List Tick}
    (hrest : MockBinding.writes { m with ticks := ticks } p = []) {port' : MockPortBinding} {done' dropped' : List Buffer}
    (hsent : sent = done' ++ dropped') (hsingle : dropped'.length ≤ 1) (hshows : Shows done' dropped' [] m.device.record port') :
    Written p sent done' dropped' (MockBinding.setPort { m with ticks := ticks } p port') := by
  have hwrites : MockBinding.writes (MockBinding.setPort { m with ticks := ticks } p port') p = [] := hrest
  refine ⟨?_, ?_, fun hle => ?_, fun hno => ?_, fun port₁ hport₁ => ?_⟩
  · rw [hwrites, List.append_nil]
    exact hsent
  · rw [hwrites, List.append_nil]
    exact hsingle
  · have hno := h.known hle
    rw [hport] at hno
    cases hno
  · rw [ports_setPort, if_pos rfl] at hno
    cases hno
  · rw [ports_setPort, if_pos rfl] at hport₁
    cases hport₁
    rw [hwrites]
    exact hshows

/-- **The tick of a write**: it lands, or is dropped with its session. -/
theorem Written.tick (h : Written p sent done dropped m) {data : Buffer} (hmem : Tick.write p data ∈ m.ticks)
    (hport : m.ports p = some port) (size : ℕ) :
    let after := MockBinding.writeTick { m with ticks := m.ticks.erase (.write p data) } p port data
    Written p sent (done ++ m.lands p (.tick (.write p data) size)) (dropped ++ m.drops p (.tick (.write p data) size)) after.1 ∧
      after.2.countP (Output.reports p) = (m.lands p (.tick (.write p data) size)).length := by
  intro after
  obtain ⟨hwrites, rfl, hrest⟩ := h.due hmem
  have hshows := h.shows port hport
  have horder := h.order
  rw [hwrites] at horder
  have hany : (m.ports p).any (·.isOpen) = port.isOpen := by rw [hport]; rfl
  cases hopen : port.isOpen with
  | false =>
    have hlands : m.lands p (.tick (.write p data) size) = [] := if_neg fun hboth => by
      rw [hany, hopen] at hboth
      cases hboth.2
    have hdrops : m.drops p (.tick (.write p data) size) = [data] := if_pos ⟨rfl, hany.trans hopen⟩
    have hafter : after = (MockBinding.setPort { m with ticks := m.ticks.erase (.write p data) } p
        { port with writeOperation := some .settled }, [.wrote p (.error .canceled)]) := if_pos (by rw [hopen]; rfl)
    rw [hlands, hdrops, hafter, List.append_nil]
    refine ⟨h.taken hport hrest (horder.trans (List.append_assoc _ _ _)) le_rfl ⟨fun hne => absurd rfl hne, fun ho => ?_, hshows.recorded,
      hshows.lastWrite⟩, rfl⟩
    rw [hopen] at ho
    cases ho
  | true =>
    have hlands : m.lands p (.tick (.write p data) size) = [data] := if_pos ⟨rfl, hany.trans hopen⟩
    have hdrops : m.drops p (.tick (.write p data) size) = [] := if_neg fun hboth => by
      rw [hany, hopen] at hboth
      cases hboth.2
    rw [hlands, hdrops, List.append_nil]
    obtain ⟨port', hport'⟩ : ∃ port' : MockPortBinding, port' = { port with
        writeOperation := some .settled, lastWrite := some data
        recorded := if m.device.record then port.recorded ++ [data] else port.recorded } := ⟨_, rfl⟩
    have hrecorded : port'.recorded = if m.device.record then done ++ [data] else [] := by
      rw [hport']
      show (if m.device.record then port.recorded ++ [data] else port.recorded) = _
      rw [hshows.recorded]
      split <;> rfl
    have hlast : port'.lastWrite = (done ++ [data]).getLast? := by
      rw [hport']
      exact List.getLast?_concat.symm
    have hlanded := h.taken hport hrest (by rw [horder, List.append_nil, List.append_nil]) (Nat.zero_le _)
      (show Shows (done ++ [data]) [] [] m.device.record port' from ⟨fun hne => absurd rfl hne, fun _ => rfl, hrecorded, hlast⟩)
    have hafter : after = (if m.device.echo then
        (MockBinding.setPort { m with ticks := m.ticks.erase (.write p data) } p port').schedule (.echo p data)
      else MockBinding.setPort { m with ticks := m.ticks.erase (.write p data) } p port', [.wrote p (.ok ())]) := by
      rw [hport']
      exact if_neg (by rw [hopen]; decide)
    rw [hafter]
    refine ⟨?_, ?_⟩
    · show Written p sent _ _ (if m.device.echo then _ else _)
      split
      · exact hlanded.same (.schedule rfl)
      · exact hlanded
    · show ([.wrote p (.ok ())] : List Output).countP (Output.reports p) = 1
      simp [Output.reports]

/-! ### Steps -/

/-- What a step does to the writes of a session. -/
def Goes (p : ℕ) (sent done dropped : List Buffer) (m : MockBinding) (event : Event) (m' : MockBinding) (out : List Output) : Prop :=
  Written p (sent ++ m.takes p event) (done ++ m.lands p event) (dropped ++ m.drops p event) m' ∧
    out.countP (Output.reports p) = (m.lands p event).length

theorem Written.quiet {event : Event} (h : Written p sent done dropped m') (htakes : m.takes p event = [])
    (hlands : m.lands p event = []) (hdrops : m.drops p event = []) (hcount : out.countP (Output.reports p) = 0) :
    Goes p sent done dropped m event m' out := by
  unfold Goes
  rw [htakes, hlands, hdrops, hcount, List.append_nil, List.append_nil, List.append_nil]
  exact ⟨h, rfl⟩

theorem emitData_silent (data : Buffer) : (m.emitData port data).2.countP (Output.reports p) = 0 := by
  unfold emitData
  split <;> rfl

theorem wakeTick_silent {size : ℕ} : (m.wakeTick q port size).2.countP (Output.reports p) = 0 := by
  unfold wakeTick
  simp only
  split
  · rfl
  · split
    · rfl
    · split
      · rfl
      · split <;> rfl

theorem writeTick_silent (hne : q ≠ p) (data : Buffer) : (m.writeTick q port data).2.countP (Output.reports p) = 0 := by
  unfold writeTick
  simp only
  split
  · rfl
  · simp [Output.reports, hne]

theorem open_goes (h : Written p sent done dropped m) (lock : Bool) :
    Goes p sent done dropped m (.open lock) (m.openPort lock).1 (m.openPort lock).2 := by
  unfold openPort
  simp only
  split
  · exact h.quiet rfl rfl rfl rfl
  · have hready : ((m.device.readyData.map (Tick.ready m.opened)).toList).filterMap (Tick.write? p) = [] := by
      cases m.device.readyData <;> rfl
    refine Written.quiet ?_ rfl rfl rfl rfl
    exact (h.opens lock _ hready).same ⟨rfl, rfl, rfl, le_rfl⟩

theorem close_goes (h : Written p sent done dropped m) (hport : m.ports q = some port) :
    Goes p sent done dropped m (.close q) (m.closePort q port).1 (m.closePort q port).2 := by
  unfold closePort
  split
  · exact h.quiet rfl rfl rfl rfl
  · have hclosed : Written p sent done dropped (m.setPort q { port with isOpen := false, pending := none }) := by
      by_cases heq : q = p
      · subst heq
        exact h.close hport rfl
      · exact h.same (.setOther heq)
    have hleft : Written p sent done dropped ((m.setPort q { port with isOpen := false, pending := none }).leave q) :=
      hclosed.same ⟨rfl, rfl, rfl, le_rfl⟩
    refine hleft.quiet rfl rfl rfl ?_
    cases port.pending <;> rfl

theorem read_goes (h : Written p sent done dropped m) (hport : m.ports q = some port) (size : ℕ) (offset length : ℤ) :
    Goes p sent done dropped m (.read q size offset length) (m.read q port size offset length).1
      (m.read q port size offset length).2 := by
  have hread : Same p m { m with reads := m.reads + 1 } := ⟨rfl, rfl, rfl, le_rfl⟩
  unfold read
  simp only
  split
  · exact (h.same hread).quiet rfl rfl rfl rfl
  split
  · exact (h.same hread).quiet rfl rfl rfl rfl
  split
  · exact (h.same hread).quiet rfl rfl rfl rfl
  · refine Written.quiet ?_ rfl rfl rfl rfl
    have hwoken (port' : MockPortBinding) (hcore : port'.core = port.core) :
        Same p m ((MockBinding.setPort { m with reads := m.reads + 1 } q port').wake q) :=
      (hread.trans (.setPort hport hcore)).trans .wake
    exact h.same (hwoken _ rfl)

theorem write_goes (h : Written p sent done dropped m) (hport : m.ports q = some port) (data : Buffer) :
    Goes p sent done dropped m (.write q data) (m.write q port data).1 (m.write q port data).2 := by
  have hany : (m.ports q).any (fun port => port.isOpen && port.writeOperation.isNone) =
      (port.isOpen && port.writeOperation.isNone) := by rw [hport]; rfl
  have hrefused (hno : (port.isOpen && port.writeOperation.isNone) = false) : m.takes p (.write q data) = [] := if_neg fun hboth => by
    obtain ⟨rfl, htaken⟩ := hboth
    rw [hany, hno] at htaken
    cases htaken
  unfold write
  split
  · rename_i hclosed
    rw [Bool.not_eq_true'] at hclosed
    exact h.quiet (hrefused (by rw [hclosed]; rfl)) rfl rfl rfl
  split
  · rename_i hbusy
    refine h.quiet (hrefused ?_) rfl rfl rfl
    rw [Option.isSome_iff_ne_none] at hbusy
    cases hoperation : port.writeOperation with
    | none => exact absurd hoperation hbusy
    | some => exact Bool.and_false _
  · rename_i hopen hidle
    rw [Bool.not_eq_true', Bool.not_eq_false] at hopen
    rw [Bool.not_eq_true, Option.isSome_eq_false_iff, Option.isNone_iff_eq_none] at hidle
    by_cases heq : q = p
    · subst heq
      have htakes : m.takes q (.write q data) = [data] := if_pos ⟨rfl, by rw [hany, hopen, hidle]; rfl⟩
      unfold Goes
      rw [htakes]
      exact ⟨by simpa [lands, drops] using h.take hport hopen hidle data, rfl⟩
    · have htakes : m.takes p (.write q data) = [] := if_neg fun hboth => heq hboth.1
      refine Written.quiet (h.same ((Same.setOther heq).trans (.schedule ?_))) htakes rfl rfl rfl
      exact if_neg heq

theorem written_goes (h : Written p sent done dropped m) (hport : m.ports q = some port)
    (hsettled : port.writeOperation = some .settled) :
    Goes p sent done dropped m (.written q) (m.setPort q { port with writeOperation := none }) [] := by
  by_cases heq : q = p
  · subst heq
    exact (h.settled hport hsettled).quiet rfl rfl rfl rfl
  · exact (h.same (.setOther heq)).quiet rfl rfl rfl rfl

theorem Written.emits {m₀ : MockBinding} {event : Event} {data : Buffer} (h : Written p sent done dropped m₀)
    (htakes : m.takes p event = []) (hlands : m.lands p event = []) (hdrops : m.drops p event = [])
    (hrun : (m₀.ports q).map (fun port => if port.isOpen then m₀.emitData port data else (m₀, [])) = some (m', out)) :
    Goes p sent done dropped m event m' out := by
  obtain ⟨port, hport, heq⟩ := Option.map_eq_some_iff.1 hrun
  split at heq
  · obtain ⟨rfl, rfl⟩ := Prod.mk.inj heq
    exact (h.same (.emitData data)).quiet htakes hlands hdrops (emitData_silent data)
  · cases heq
    exact h.quiet htakes hlands hdrops rfl

theorem tick_goes (h : Written p sent done dropped m) {tick : Tick} {size : ℕ} (hmem : tick ∈ m.ticks)
    (hrun : MockBinding.runTick { m with ticks := m.ticks.erase tick } tick size = some (m', out)) :
    Goes p sent done dropped m (.tick tick size) m' out := by
  cases tick with
  | ready q data =>
    exact (h.same (.erase rfl)).emits rfl rfl rfl hrun
  | echo q data =>
    exact (h.same (.erase rfl)).emits rfl rfl rfl hrun
  | wake q =>
    obtain ⟨port, hport, heq⟩ := Option.map_eq_some_iff.1 hrun
    obtain ⟨rfl, rfl⟩ := Prod.mk.inj heq
    have herased : Same p m { m with ticks := m.ticks.erase (.wake q) } := .erase rfl
    exact (h.same (herased.trans (.wakeTick hport))).quiet rfl rfl rfl wakeTick_silent
  | flush q =>
    obtain ⟨port, hport, heq⟩ := Option.map_eq_some_iff.1 hrun
    have herased : Same p m { m with ticks := m.ticks.erase (.flush q) } := .erase rfl
    split at heq
    · cases heq
      exact (h.same herased).quiet rfl rfl rfl rfl
    · cases heq
      refine Written.quiet ?_ rfl rfl rfl rfl
      exact h.same (herased.trans ⟨rfl, rfl, rfl, le_rfl⟩)
  | write q data =>
    obtain ⟨port, hport, heq⟩ := Option.map_eq_some_iff.1 hrun
    have hafter : (MockBinding.writeTick { m with ticks := m.ticks.erase (.write q data) } q port data).1 = m' := congrArg Prod.fst heq
    have hout : (MockBinding.writeTick { m with ticks := m.ticks.erase (.write q data) } q port data).2 = out := congrArg Prod.snd heq
    subst hafter hout
    by_cases hown : q = p
    · subst hown
      obtain ⟨hwritten, hcount⟩ := h.tick hmem hport size
      refine ⟨?_, hcount⟩
      rw [show m.takes q (.tick (.write q data) size) = [] from rfl, List.append_nil]
      exact hwritten
    · have hlands : m.lands p (.tick (.write q data) size) = [] := if_neg fun hboth => hown hboth.1
      have hdrops : m.drops p (.tick (.write q data) size) = [] := if_neg fun hboth => hown hboth.1
      have herased : Same p m { m with ticks := m.ticks.erase (.write q data) } := .erase (if_neg hown)
      exact (h.same (herased.trans (.writeTick hown data))).quiet rfl hlands hdrops (writeTick_silent hown data)

/-- **Every step** keeps the account of the writes. -/
theorem written_step (h : Written p sent done dropped m) {event : Event} (hstep : m.step event = some (m', out)) :
    Goes p sent done dropped m event m' out := by
  cases event with
  | «open» lock =>
    obtain ⟨rfl, rfl⟩ := Prod.mk.inj (Option.some.inj hstep)
    exact open_goes h lock
  | close q =>
    obtain ⟨port, hport, heq⟩ := Option.map_eq_some_iff.1 hstep
    obtain ⟨rfl, rfl⟩ := Prod.mk.inj heq
    exact close_goes h hport
  | read q size offset length =>
    obtain ⟨port, hport, heq⟩ := Option.map_eq_some_iff.1 hstep
    obtain ⟨rfl, rfl⟩ := Prod.mk.inj heq
    exact read_goes h hport size offset length
  | emitData q data =>
    obtain ⟨port, hport, heq⟩ := Option.map_eq_some_iff.1 hstep
    obtain ⟨rfl, rfl⟩ := Prod.mk.inj heq
    exact (h.same (.emitData data)).quiet rfl rfl rfl (emitData_silent data)
  | feed data =>
    obtain ⟨rfl, rfl⟩ := Prod.mk.inj (Option.some.inj hstep)
    exact (h.same (.feed data)).quiet rfl rfl rfl rfl
  | write q data =>
    obtain ⟨port, hport, heq⟩ := Option.map_eq_some_iff.1 hstep
    obtain ⟨rfl, rfl⟩ := Prod.mk.inj heq
    exact write_goes h hport data
  | written q =>
    obtain ⟨port, hport, heq⟩ := Option.bind_eq_some_iff.1 hstep
    split at heq
    · rename_i hsettled
      cases heq
      exact written_goes h hport hsettled
    · cases heq
  | flush q =>
    obtain ⟨port, hport, heq⟩ := Option.map_eq_some_iff.1 hstep
    split at heq
    · cases heq
      exact h.quiet rfl rfl rfl rfl
    · cases heq
      exact (h.same (.schedule rfl)).quiet rfl rfl rfl rfl
  | tick tick size =>
    simp only [step] at hstep
    split at hstep
    · rename_i hmem
      exact tick_goes h hmem hstep
    · cases hstep

end MockBinding

/-! ### Runs -/

/-- **The writes of a session.**  In every run they land in the order in which they were taken, one at a time; at most the last one
is still scheduled, or was dropped as its session was closed.  Each that landed was reported once; what is recorded is what landed,
and `lastWrite` is the last of it. -/
theorem mock_records {device : VirtualDevice} {events : List Event} {m : MockBinding} {outputs : List Output}
    (hrun : mock.run { device := device } events = some (m, outputs)) (p : ℕ) :
    let landed := mock.collect (MockBinding.lands p) { device := device } events
    let dropped := mock.collect (MockBinding.drops p) { device := device } events
    mock.collect (MockBinding.takes p) { device := device } events = landed ++ dropped ++ m.writes p ∧
      (dropped ++ m.writes p).length ≤ 1 ∧ outputs.countP (Output.reports p) = landed.length ∧
      ∀ port, m.ports p = some port → port.recorded = (if m.device.record then landed else []) ∧
        port.lastWrite = landed.getLast? ∧ (port.isOpen = true → dropped = []) ∧
        (m.writes p ≠ [] → port.writeOperation = some .running) := by
  intro landed dropped
  have hstart : MockBinding.Written p [] [] [] { device := device } :=
    ⟨rfl, Nat.zero_le _, fun _ => rfl, fun _ => ⟨rfl, rfl, rfl⟩, fun port hport => by cases hport⟩
  have hP := Machine.run_rule_all (fun events outputs m => mock.run { device := device } events = some (m, outputs) ∧
    MockBinding.Written p (mock.collect (MockBinding.takes p) { device := device } events)
      (mock.collect (MockBinding.lands p) { device := device } events)
      (mock.collect (MockBinding.drops p) { device := device } events) m ∧
    outputs.countP (Output.reports p) = (mock.collect (MockBinding.lands p) { device := device } events).length)
    ⟨rfl, hstart, rfl⟩ ?_ hrun
  · obtain ⟨-, hwritten, hcount⟩ := hP
    refine ⟨hwritten.order, hwritten.single, hcount, fun port hport => ?_⟩
    have hshows := hwritten.shows port hport
    exact ⟨hshows.recorded, hshows.lastWrite, hshows.isOpen, hshows.running⟩
  · rintro events outputs m event m' out ⟨hrun, hwritten, hcount⟩ hstep
    obtain ⟨hgoes, hone⟩ := MockBinding.written_step hwritten hstep
    refine ⟨Machine.run_append hrun (Machine.run_singleton hstep), ?_, ?_⟩
    · rw [Machine.collect_snoc hrun, Machine.collect_snoc hrun, Machine.collect_snoc hrun]
      exact hgoes
    · rw [Machine.collect_snoc hrun, List.countP_append, List.length_append, hcount, hone]

/-- A write lands; the next one is dropped with its session. -/
def closedWhileWriting : List Event :=
  [.open true, .write 0 [1, 2], .write 0 [9], .tick (.write 0 [1, 2]) 0, .written 0, .write 0 [3], .close 0, .tick (.write 0 [3]) 0]

theorem mock_records_closed : ∃ m outputs,
    mock.run { device := { echo := true, record := true, maxReadSize := 16, readyData := none } } closedWhileWriting =
      some (m, outputs) ∧ outputs.countP (Output.reports 0) = 1 := by
  have hruns : (mock.run { device := { echo := true, record := true, maxReadSize := 16, readyData := none } }
      closedWhileWriting).isSome = true := by decide
  obtain ⟨⟨m, outputs⟩, hrun⟩ := Option.isSome_iff_exists.1 hruns
  exact ⟨m, outputs, hrun, (mock_records hrun 0).2.2.1⟩

end NodeSerialport.Mock
