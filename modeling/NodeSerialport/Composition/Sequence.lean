import NodeSerialport.Composition.Fulfilled
import NodeSerialport.Lib.Keys
/-!
# Writes in order

A port has one write at a time.  So the native handle takes the bytes of one write after those of another, and the device
does so with those of the writes that resolve.

* `writers` — the writes among the calls that were taken;
* `Sequenced` — the invariant: they come in the order in which they were called;
* `resolved_in_order` — over a run of a port and its native side.
-/

namespace NodeSerialport.Composition

open Parsers (Buffer)
open Lib (Machine gathered)
open Binding (Client NativeCall Answer Site Method Writer Methodical client)
open Native (log)

/-- The writes among the calls that were taken. -/
def writers (calls : List Taken) : List ℕ := calls.filterMap fun t => writer t.site

@[simp] theorem writers_append (calls more : List Taken) : writers (calls ++ more) = writers calls ++ writers more :=
  List.filterMap_append

variable {c c' : Client} {w : Writer} {calls : List Taken} {writes : List (ℕ × Method)}

/-- A step takes from one write at most: the one that hands its bytes over. -/
theorem writers_taken (hat : c.At w) (hn : w.Numbered) (i : Binding.Input) :
    writers (taken c i) = [] ∨ ∃ method, w.submits = some method ∧ writers (taken c i) = [method] := by
  have hsite : ∀ {call : NativeCall} {site : Site}, c.calling = some (call, site) → ∀ promise,
      writers [⟨site, call, promise⟩] = [] ∨ ∃ method, w.submits = some method ∧ writers [⟨site, call, promise⟩] = [method] := by
    intro call site hcalling promise
    cases site with
    | write m =>
      obtain ⟨buffer, id, inline, rfl, -⟩ := hat.site_write hcalling
      exact .inr ⟨m, rfl, rfl⟩
    | credit => exact .inl rfl
    | request ordered task =>
      cases task with
      | batches rest p =>
        obtain ⟨m, batch, id, inline, rfl, -, -⟩ := hat.site_batches hcalling
        obtain rfl := hn _ _ _ _ rfl
        exact .inr ⟨m, rfl, rfl⟩
      | _ => exact .inl rfl
  cases i with
  | answer answer =>
    cases hcalling : c.calling with
    | none => cases answer <;> exact .inl (by simp [taken, hcalling, writers])
    | some calling =>
      obtain ⟨call, site⟩ := calling
      cases answer with
      | thrown => exact .inl rfl
      | completed => simpa [taken, hcalling] using hsite hcalling none
      | queued =>
        cases site with
        | credit bytes slots => exact .inl (by simp [taken, hcalling, writers, writer])
        | write m => simpa [taken, hcalling] using hsite hcalling (some c.promises)
        | request ordered task => simpa [taken, hcalling] using hsite hcalling (some c.promises)
  | _ => exact .inl rfl

/-- **The writes of a port come one after the other.** -/
structure Sequenced (writes : List (ℕ × Method)) (calls : List Taken) (c : Client) : Prop where
  called : (writes.map Prod.fst).Pairwise (· < ·)
  made : ∀ write ∈ writes, write.1 < c.promises
  sorted : (writers calls).Pairwise (· ≤ ·)
  methodical : Methodical c
  placed : ∃ w, c.At w ∧ w.Numbered ∧ (∀ method ∈ writers calls, method < c.promises) ∧
    ∀ method, w.submits = some method → ∀ earlier ∈ writers calls, earlier ≤ method

namespace Sequenced

theorem start (path : String) (nextId : ℕ) : Sequenced [] [] (Client.new path nextId) := by
  refine ⟨.nil, fun _ hmem => absurd hmem List.not_mem_nil, .nil, .start path nextId, .idle, .start path nextId, ?_,
    fun _ hmem => absurd hmem List.not_mem_nil, nofun⟩
  intro _ _ _ _ hw
  cases hw

theorem step (h : Sequenced writes calls c) {i : Binding.Input} {out : List Binding.Output}
    (hstep : client.step c i = some (c', out)) : Sequenced (writes ++ begun c i) (calls ++ taken c i) c' := by
  obtain ⟨hbegun, hmade, htaken, hm, w, hat, hn, hlt, hle⟩ := h
  obtain ⟨w', hat', hw⟩ := Client.step_writer (i := i) hat hstep
  have hmono := Client.promises_mono hstep
  have hnew : ∀ write ∈ begun c i, write.1 = c.promises ∧ write.1 < c'.promises := by
    intro write hmem
    cases i with
    | invoke m =>
      simp only [Composition.begun] at hmem
      split at hmem
      · rename_i hwrites
        obtain rfl := List.mem_singleton.1 hmem
        refine ⟨rfl, (Client.starts_lt (i := .invoke m) hstep ?_).2⟩
        have hasync : m.async = true := by
          cases m with
          | write | writev => rfl
          | _ => cases hwrites
        simp [Client.starts, hasync]
      · cases hmem
    | _ => cases hmem
  have hone : (begun c i).length ≤ 1 := by
    cases i with
    | invoke m =>
      simp only [Composition.begun]
      split <;> simp
    | _ => exact Nat.zero_le 1
  -- what is taken now belongs to the write that hands its bytes over
  have hwriters : ∀ method ∈ writers (taken c i), w.submits = some method := by
    intro method hmem
    rcases writers_taken hat hn i with hnone | ⟨method', hsub, heq⟩
    · rw [hnone] at hmem
      cases hmem
    · rw [heq] at hmem
      rw [List.mem_singleton.1 hmem]
      exact hsub
  refine ⟨?_, fun write hmem => ?_, ?_, hm.step hstep, w', hat', hw.numbered hn, fun method hmem => ?_, fun method hsub earlier hmem => ?_⟩
  · rw [List.map_append, List.pairwise_append]
    refine ⟨hbegun, ?_, fun a ha b hb => ?_⟩
    · rcases Nat.le_one_iff_eq_zero_or_eq_one.1 hone with hzero | hone
      · rw [List.length_eq_zero_iff.1 hzero]
        exact .nil
      · obtain ⟨write, hwrite⟩ := List.length_eq_one_iff.1 hone
        rw [hwrite]
        exact List.pairwise_singleton _ _
    · obtain ⟨write, hwrite, rfl⟩ := List.mem_map.1 ha
      obtain ⟨write', hwrite', rfl⟩ := List.mem_map.1 hb
      rw [(hnew write' hwrite').1]
      exact hmade write hwrite
  · rcases List.mem_append.1 hmem with hold | hmem
    · exact (hmade write hold).trans_le hmono
    · exact (hnew write hmem).2
  · rw [writers_append, List.pairwise_append]
    refine ⟨htaken, ?_, fun earlier hearlier method hmem => hle method (hwriters method hmem) earlier hearlier⟩
    rcases writers_taken hat hn i with hnone | ⟨method, -, heq⟩
    · rw [hnone]
      exact .nil
    · rw [heq]
      exact List.pairwise_singleton _ _
  · rw [writers_append] at hmem
    rcases List.mem_append.1 hmem with hold | hmem
    · exact (hlt method hold).trans_le hmono
    · exact (hat.submits_lt hm (hwriters method hmem)).trans_le hmono
  · rw [writers_append] at hmem
    rcases hw.submits hsub with hsub | rfl
    · rcases List.mem_append.1 hmem with hold | hmem
      · exact hle method hsub earlier hold
      · exact (Option.some.inj ((hwriters earlier hmem).symm.trans hsub)).le
    · rcases List.mem_append.1 hmem with hold | hmem
      · exact (hlt earlier hold).le
      · exact (hat.submits_lt hm (hwriters earlier hmem)).le

/-- **Every reachable state.** -/
theorem run {path : String} {nextId : ℕ} {inputs : List Input} {s : System} {outputs : List Output}
    (hrun : system.run (System.new path nextId) inputs = some (s, outputs)) :
    Sequenced (system.collect System.begun (System.new path nextId) inputs)
      (system.collect System.taken (System.new path nextId) inputs) s.js := by
  refine (Machine.run_rule_all (fun inputs outputs (s : System) =>
    system.run (System.new path nextId) inputs = some (s, outputs) ∧
      Sequenced (system.collect System.begun (System.new path nextId) inputs)
        (system.collect System.taken (System.new path nextId) inputs) s.js) ⟨rfl, .start path nextId⟩ ?_ hrun).2
  rintro inputs outputs s i s' out ⟨hrun, h⟩ hstep
  refine ⟨Machine.run_append hrun (Machine.run_singleton hstep), ?_⟩
  rw [Machine.collect_snoc hrun, Machine.collect_snoc hrun]
  rcases step_follows hstep with ⟨j, hjs, htaken, hbegun⟩ | ⟨hjs, -, htaken, hbegun⟩
  · rw [htaken, hbegun]
    exact h.step hjs
  · rw [htaken, hbegun, hjs, List.append_nil, List.append_nil]
    exact h

end Sequenced

/-- There is a last one among the calls of writes that are done. -/
theorem last_front {done : List Native.Atom} (h : ∀ write ∈ writes,
    ∃ front, front <+: calls ∧ carried write.1 front = write.2.data ∧ (asked front).Sublist done) :
    ∃ last, last <+: calls ∧ (asked last).Sublist done ∧
      ∀ write ∈ writes, write.2.data <+: carried write.1 last := by
  induction writes with
  | nil => exact ⟨[], List.nil_prefix, List.nil_sublist _, fun _ hmem => absurd hmem List.not_mem_nil⟩
  | cons write writes ih =>
    obtain ⟨last, hlast, hdone, hothers⟩ := ih fun other hmem => h other (List.mem_cons_of_mem _ hmem)
    obtain ⟨front, hfront, hcarried, hasked⟩ := h write List.mem_cons_self
    rcases Nat.le_total front.length last.length with hle | hle
    · refine ⟨last, hlast, hdone, fun other hmem => ?_⟩
      rcases List.mem_cons.1 hmem with rfl | hmem
      · rw [← hcarried]
        exact Lib.gathered_prefix (List.prefix_of_prefix_length_le hfront hlast hle) other.1
      · exact hothers other hmem
    · refine ⟨front, hfront, hasked, fun other hmem => ?_⟩
      rcases List.mem_cons.1 hmem with rfl | hmem
      · rw [hcarried]
      · exact (hothers other hmem).trans (Lib.gathered_prefix (List.prefix_of_prefix_length_le hlast hfront hle) other.1)

/-- **Writes that resolve are on the device in the order of their calls.** -/
theorem resolved_in_order {path : String} {nextId : ℕ} (hnextId : Binding.BindingPort.InRange nextId) {inputs : List Input}
    {s : System} {outputs : List Output} (hrun : system.run (System.new path nextId) inputs = some (s, outputs))
    (hteardown : s.native.teardown = false)
    (hwrites : writes.Sublist (system.collect System.begun (System.new path nextId) inputs))
    (hresolved : ∀ write ∈ writes, ∃ result, .js (.returned write.1 (.ok result)) ∈ outputs) :
    (writes.flatMap fun write => write.2.data).Sublist ((log (natives outputs)).filterMap byte?) := by
  have hsequenced := Sequenced.run hrun
  have hfronts : ∀ write ∈ writes, ∃ front, front <+: system.collect System.taken (System.new path nextId) inputs ∧
      carried write.1 front = write.2.data ∧ (asked front).Sublist (log (natives outputs)) := by
    intro write hmem
    obtain ⟨result, hresult⟩ := hresolved write hmem
    exact (Filled.run hnextId hrun hteardown).settled write (hwrites.subset hmem) result (mem_jsOutputs.2 hresult)
  obtain ⟨last, hlast, hdone, hcarried⟩ := last_front hfronts
  have htaken : (writers last).Pairwise (· ≤ ·) := hsequenced.sorted.sublist (hlast.sublist.filterMap _)
  have hmethods : (writes.map Prod.fst).Pairwise (· < ·) := hsequenced.called.sublist (hwrites.map _)
  have hgathered : ((writes.map Prod.fst).flatMap fun method => carried method last).Sublist
      (last.flatMap fun t => Native.payload t.call) := Lib.gathered_sublist htaken hmethods
  have hbytes : (asked last).filterMap byte? = last.flatMap fun t => Native.payload t.call := by
    rw [asked, effects_bytes, List.flatMap_map]
  have hdata : (writes.flatMap fun write => write.2.data).Sublist
      ((writes.map Prod.fst).flatMap fun method => carried method last) := by
    rw [List.flatMap_map]
    clear hwrites hresolved hfronts hmethods hgathered
    induction writes with
    | nil => exact List.nil_sublist _
    | cons write writes ih =>
      rw [List.flatMap_cons, List.flatMap_cons]
      exact (hcarried write List.mem_cons_self).sublist.append (ih fun other hmem => hcarried other (List.mem_cons_of_mem _ hmem))
  exact hdata.trans (hgathered.trans (hbytes ▸ hdone.filterMap byte?))

end NodeSerialport.Composition
