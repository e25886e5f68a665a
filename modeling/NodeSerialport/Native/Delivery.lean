import NodeSerialport.Native.Steps
/-!
# The reactor delivers what it read

The bytes of a read wait in the read buffer, alone behind it, or in a batch, until an event takes them to JavaScript.

* `reads`, `handed` — the device reads of a run, and the events it handed to the callback;
* `NativePort.unsent` — the reads in the hands of the reactor;
* `Moves.unsent` — what one transition does to them;
* `delivers_reads` — over a run, what was handed over is what was read.
-/

namespace NodeSerialport.Native

open Parsers (Buffer)
open Lib (Machine)
open Binding (NativeEvent)

variable {n n' : NativePort} {out : List Output}

/-! ### What a run reads and hands over -/

/-- The buffers of a streaming event. -/
def CallbackEvent.chunks : CallbackEvent → List Buffer
  | .inlineRead bytes len => [bytes.take len]
  | .read data => [data]
  | .readBatch buffers => buffers
  | .event _ => []

/-- The buffers of an event, explicit reads included. -/
def CallbackEvent.payload : CallbackEvent → List Buffer
  | .event nativeEvent => nativeEvent.data.toList
  | other => other.chunks

def Output.read? : Output → Option Buffer
  | .readData data => some data
  | _ => none

def Output.handed? : Output → Option CallbackEvent
  | .handed event => some event
  | _ => none

/-- The successful device reads. -/
def reads (outputs : List Output) : List Buffer := outputs.filterMap Output.read?

/-- The events handed to the callback. -/
def handed (outputs : List Output) : List CallbackEvent := outputs.filterMap Output.handed?

/-- Their data. -/
def payloads (outputs : List Output) : List Buffer := (handed outputs).flatMap CallbackEvent.payload

@[simp] theorem reads_append (a b : List Output) : reads (a ++ b) = reads a ++ reads b := List.filterMap_append

@[simp] theorem handed_append (a b : List Output) : handed (a ++ b) = handed a ++ handed b := List.filterMap_append

@[simp] theorem payloads_append (a b : List Output) : payloads (a ++ b) = payloads a ++ payloads b := by
  unfold payloads
  rw [handed_append, List.flatMap_append]

/-! ### What the reactor holds -/

namespace NativePort

/-- The streaming reads in the hands of the reactor. -/
def charged (n : NativePort) : List Buffer :=
  match n.reactor.pc with
  | .filled length _ | .single length | .first length => [n.reactor.readBuffer.take length]
  | .burst _ first batch | .publish _ first batch => first.toList ++ batch
  | _ => []

/-- The explicit read in the hands of the reactor. -/
def replying (n : NativePort) : List Buffer :=
  match n.reactor.pc with
  | .reply event => event.data.toList
  | _ => []

/-- The reads in the hands of the reactor. -/
def unsent (n : NativePort) : List Buffer := n.charged ++ n.replying

theorem charged_calm (h : n.reactor.pc.calm = true) : n.charged = [] := by
  unfold charged
  split <;> first | rfl | (rename_i hpc; rw [hpc] at h; cases h)

theorem replying_calm (h : n.reactor.pc.calm = true) : n.replying = [] := by
  unfold replying
  split
  · rename_i hpc
    rw [hpc] at h
    cases h
  · rfl

theorem unsent_calm (h : n.reactor.pc.calm = true) : n.unsent = [] := by
  rw [unsent, charged_calm h, replying_calm h]
  rfl

end NativePort

theorem CallbackEvent.ofRead_chunks {buffer : Buffer} {length : ℕ} (h : length ≤ buffer.length) :
    (CallbackEvent.ofRead buffer length).1.chunks = [buffer.take length] := by
  unfold ofRead
  split
  · rfl
  · have htake : (buffer.take length).length = length := List.length_take_of_le h
    show [(buffer.take length ++ List.replicate (inlineReadCapacity - length) 0).take length] = _
    rw [List.take_append_of_le_length htake.ge, List.take_of_length_le htake.le]

theorem CallbackEvent.ofRead_payload (buffer : Buffer) (length : ℕ) :
    (CallbackEvent.ofRead buffer length).1.payload = (CallbackEvent.ofRead buffer length).1.chunks := by
  unfold ofRead
  split <;> rfl

theorem collect_append {first : Option Buffer} {batch : List Buffer} (h : first = none ∨ batch = []) (data : Buffer) :
    (collect first batch data).1.toList ++ (collect first batch data).2 = first.toList ++ batch ++ [data] := by
  unfold collect
  cases first with
  | some previous =>
    obtain rfl : batch = [] := h.resolve_left nofun
    rfl
  | none =>
    dsimp only
    split
    · rename_i hbatch
      rw [hbatch]
      rfl
    · rfl

namespace NativePort

theorem unsent_none {pc : Pc} (hpc : n.reactor.pc = pc) (h : pc.calm = true) : n.unsent = [] :=
  unsent_calm (hpc ▸ h)

end NativePort

theorem signalled_unsent {event : NativeEvent} {pc : Pc}
    (hsignal : n.reactor.pc = .opened ∧ pc = .top ∧ event.kind = .opened ∨
      (∃ result, n.reactor.pc = .released result) ∧ pc = .reported ∧ event.kind = .closed)
    (hdata : event.data = none) :
    payloads [.handed (.event event)] ++ ((n.push (.event event)).goto pc).unsent = n.unsent := by
  have before : n.unsent = [] := by
    rcases hsignal with ⟨hpc, -, -⟩ | ⟨⟨result, hpc⟩, -, -⟩ <;> exact NativePort.unsent_none hpc rfl
  have after : ((n.push (.event event)).goto pc).reactor.pc.calm = true := by
    rcases hsignal with ⟨-, rfl, -⟩ | ⟨-, rfl, -⟩ <;> rfl
  rw [before, NativePort.unsent_calm after]
  simp [payloads, handed, Output.handed?, CallbackEvent.payload, hdata]

theorem replied_unsent {event : NativeEvent} {pc : Pc} (hfits : Fits n)
    (hpc : n.reactor.pc = .notify event ∨ n.reactor.pc = .reply event) (after : pc = .commands ∨ pc = .top) :
    payloads [.handed (.event event)] ++ ((n.push (.event event)).goto pc).unsent = n.unsent := by
  have hafter : ((n.push (.event event)).goto pc).unsent = [] :=
    NativePort.unsent_calm (by rcases after with rfl | rfl <;> rfl)
  rw [hafter]
  unfold NativePort.unsent NativePort.charged NativePort.replying
  rcases hpc with hpc | hpc
  · rw [hpc]
    simp [payloads, handed, Output.handed?, CallbackEvent.payload, (hfits.notify hpc).data]
  · rw [hpc]
    simp [payloads, handed, Output.handed?, CallbackEvent.payload]

theorem sent_unsent {length : ℕ} {pc : Pc} (hfits : Fits n)
    (hpc : n.reactor.pc = .single length ∨ n.reactor.pc = .first length)
    (after : pc = .top ∨ ∃ left, pc = .burst left none []) :
    payloads [.handed (CallbackEvent.ofRead n.reactor.readBuffer length).1] ++
      (({ n with reactor := { n.reactor with
        readBuffer := (CallbackEvent.ofRead n.reactor.readBuffer length).2 } }.push
          (CallbackEvent.ofRead n.reactor.readBuffer length).1).goto pc).unsent = n.unsent := by
  have hlength : length ≤ n.reactor.readBuffer.length := (hfits.reading (.inr hpc)).2
  have hbefore : n.unsent = [n.reactor.readBuffer.take length] := by
    unfold NativePort.unsent NativePort.charged NativePort.replying
    rcases hpc with hpc | hpc <;> rw [hpc] <;> rfl
  have hpayload : payloads [.handed (CallbackEvent.ofRead n.reactor.readBuffer length).1] =
      [n.reactor.readBuffer.take length] := by
    simp [payloads, handed, Output.handed?, CallbackEvent.ofRead_payload, CallbackEvent.ofRead_chunks hlength]
  rw [hbefore, hpayload]
  rcases after with rfl | ⟨left, rfl⟩ <;> rfl

theorem published_unsent {result : Except IoError Unit} {first : Option Buffer} {batch : List Buffer}
    {event : CallbackEvent} (hfits : Fits n) (hpc : n.reactor.pc = .publish result first batch)
    (hevent : (∃ data, first = some data ∧ event = .read data) ∨ first = none ∧ batch ≠ [] ∧ event = .readBatch batch)
    (after : n'.reactor.pc.calm = true) : payloads [.handed event] ++ n'.unsent = n.unsent := by
  rw [NativePort.unsent_calm after]
  unfold NativePort.unsent NativePort.charged NativePort.replying
  rw [hpc]
  rcases hevent with ⟨data, rfl, rfl⟩ | ⟨rfl, hbatch, rfl⟩
  · obtain rfl := (hfits.publish hpc).resolve_left nofun
    rfl
  · simp [payloads, handed, Output.handed?, CallbackEvent.payload, CallbackEvent.chunks]

/-- **What a transition does to the reads**: what was held, and what was read, is held or handed over. -/
theorem Moves.unsent (h : Moves n n' out) (hfits : Fits n) (haccepts : ∀ event, Output.refused event ∉ out) :
    payloads out ++ n'.unsent = n.unsent ++ reads out := by
  -- most transitions read nothing
  have hnone : ∀ {x : List Buffer}, x = n.unsent → x = n.unsent ++ [] := fun h => h.trans (List.append_nil _).symm
  cases h with
  | calm k before after =>
    rw [NativePort.unsent_calm before, NativePort.unsent_calm after]
    rfl
  | refused k after full => exact absurd (List.mem_singleton_self _) (haccepts _)
  | signalled hsignal hdata => exact hnone (signalled_unsent hsignal hdata)
  | executed before hended hcommands hcontrol =>
    rw [NativePort.unsent_calm before]
    rfl
  | popped hat =>
    unfold NativePort.unsent NativePort.charged NativePort.replying
    rw [hat]
    rfl
  | replied hat after => exact hnone (replied_unsent hfits hat after)
  | charged hat hread hdata hbytes hslots =>
    rw [NativePort.unsent_none hat rfl]
    show [(n.reactor.fill _).take _] ++ [] = _
    rw [Reactor.fill_take]
    rfl
  | written hat | busy hat | reading hat | credited hat | overdrawn hat | enlisted hat | answered hat | wrote hat =>
    rw [NativePort.unsent_none hat rfl]
    rfl
  | chosen hat after =>
    unfold NativePort.unsent NativePort.charged NativePort.replying
    rw [hat]
    rcases after with rfl | rfl <;> exact (List.append_nil _).symm
  | sent hat after => exact hnone (sent_unsent hfits hat after)
  | followed hat hdata hbytes hslots =>
    unfold NativePort.unsent NativePort.charged NativePort.replying
    rw [hat]
    dsimp only
    rw [collect_append (hfits.burst hat), List.append_nil, List.append_nil]
    rfl
  | collected hat =>
    unfold NativePort.unsent NativePort.charged NativePort.replying
    rw [hat]
    exact (List.append_nil _).symm
  | published hat hevent k after => exact hnone (published_unsent hfits hat hevent after)
  | unpublished hat k after =>
    rw [NativePort.unsent_calm after]
    unfold NativePort.unsent NativePort.charged NativePort.replying
    rw [hat]
    rfl

/-! ### Runs -/

theorem local_reads (h : ∀ o ∈ out, o.isLocal = true) : payloads out = [] ∧ reads out = [] := by
  have hnone : ∀ o ∈ out, o.handed? = none ∧ o.read? = none := by
    intro o ho
    have hlocal := h o ho
    cases o with
    | readData | handed | refused => cases hlocal
    | _ => exact ⟨rfl, rfl⟩
  unfold payloads handed reads
  rw [List.filterMap_eq_nil_iff.2 fun o ho => (hnone o ho).1, List.filterMap_eq_nil_iff.2 fun o ho => (hnone o ho).2]
  exact ⟨rfl, rfl⟩

theorem SameReactor.unsent (h : SameReactor n n') : n'.unsent = n.unsent := by
  unfold NativePort.unsent NativePort.charged NativePort.replying
  rw [h.reactor]

/-- The close event is the last signal, and it is sent with nothing else in hand. -/
theorem Moves.closes (h : Moves n n' out) (hfits : Fits n) {event : NativeEvent} (hkind : event.kind = .closed)
    (hmem : Output.handed (.event event) ∈ out) :
    out = [.handed (.event event)] ∧ n.reactor.pc.calm = true ∧ n'.reactor.pc.signals = 0 := by
  cases h with
  | signalled hsignal hdata =>
    cases List.mem_singleton.1 hmem
    rcases hsignal with ⟨-, -, hopened⟩ | ⟨⟨result, hpc⟩, rfl, -⟩
    · rw [hkind] at hopened
      cases hopened
    · exact ⟨rfl, by rw [hpc]; rfl, rfl⟩
  | replied hat after =>
    cases List.mem_singleton.1 hmem
    rcases hat with hat | hat
    · have hcompletion := (hfits.notify hat).kind
      rw [hkind] at hcompletion
      rcases hcompletion with h | h <;> cases h
    · have hreply := (hfits.reply hat).kind
      rw [hkind] at hreply
      rcases hreply with h | ⟨h, -⟩ <;> cases h
  | sent hat after =>
    have heq := List.mem_singleton.1 hmem
    unfold CallbackEvent.ofRead at heq
    split at heq <;> cases heq
  | published hat hevent k after =>
    have heq := List.mem_singleton.1 hmem
    rcases hevent with ⟨data, -, rfl⟩ | ⟨-, -, rfl⟩ <;> cases heq
  | calm | written | popped | busy | reading | credited | overdrawn | enlisted | chosen | collected | unpublished =>
    exact absurd hmem List.not_mem_nil
  | refused | executed | charged | answered | wrote | followed => cases List.mem_singleton.1 hmem

theorem Moves.silent (h : Moves n n' out) (hsignals : n.reactor.pc.signals = 0) :
    reads out = [] ∧ n'.reactor.pc.signals = 0 := by
  have hno : ∀ {pc : Pc} {p : Prop}, n.reactor.pc = pc → pc.signals ≠ 0 → p := fun hpc hne =>
    absurd (hpc ▸ hsignals) hne
  cases h with
  | calm k before after => exact ⟨rfl, Nat.le_zero.1 (hsignals ▸ k.signals)⟩
  | refused k after full => exact ⟨rfl, Nat.le_zero.1 (hsignals ▸ k.signals)⟩
  | signalled hsignal hdata =>
    rcases hsignal with ⟨hpc, -, -⟩ | ⟨⟨result, hpc⟩, -, -⟩
    · exact hno hpc nofun
    · exact hno hpc nofun
  | executed before hended hcommands hcontrol =>
    exact Pc.ended_elim hended (Pc.ended_of_signals hsignals)
  | replied hat after => rcases hat with hat | hat <;> exact hno hat nofun
  | sent hat after => rcases hat with hat | hat <;> exact hno hat nofun
  | written hat | popped hat | busy hat | reading hat | credited hat | overdrawn hat | enlisted hat | charged hat
  | answered hat | wrote hat | chosen hat | followed hat | collected hat | published hat | unpublished hat =>
    exact hno hat nofun

/-- **The invariant of a run whose events are all accepted.** -/
structure Delivered (outputs : List Output) (n : NativePort) : Prop where
  fits : Fits n
  held : (∀ event, Output.refused event ∉ outputs) → payloads outputs ++ n.unsent = reads outputs
  closed : (∀ event, Output.refused event ∉ outputs) → ∀ pre event post, outputs = pre ++ .handed (.event event) :: post →
    event.kind = .closed → payloads pre = reads outputs ∧ n.reactor.pc.signals = 0

namespace Delivered

variable {outputs : List Output}

theorem start : Delivered [] {} := by
  refine ⟨.start, fun _ => rfl, ?_⟩
  intro _ pre event post h
  cases pre <;> cases h

theorem step (h : Delivered outputs n) {i : Input} (hstep : native.step n i = some (n', out)) :
    Delivered (outputs ++ out) n' := by
  have hbefore : (∀ event, Output.refused event ∉ outputs ++ out) → (∀ event, Output.refused event ∉ outputs) ∧
      ∀ event, Output.refused event ∉ out :=
    fun hall => ⟨fun e he => hall e (List.mem_append_left _ he), fun e he => hall e (List.mem_append_right _ he)⟩
  have hsilent : (∀ event, Output.refused event ∉ outputs ++ out) → n.reactor.pc.signals = 0 →
      reads out = [] ∧ n'.reactor.pc.signals = 0 := by
    intro _ hsignals
    rcases step_moves h.fits hstep with ⟨hm, -⟩ | ⟨hs, hlocal⟩
    · exact hm.silent hsignals
    · exact ⟨(local_reads hlocal).2, by rw [hs.reactor]; exact hsignals⟩
  refine ⟨h.fits.step hstep, ?_, ?_⟩
  · intro hall
    obtain ⟨hold, hnew⟩ := hbefore hall
    have hheld := h.held hold
    rcases step_moves h.fits hstep with ⟨hm, -⟩ | ⟨hs, hlocal⟩
    · have hunsent := hm.unsent h.fits hnew
      calc payloads (outputs ++ out) ++ n'.unsent
          = payloads outputs ++ (payloads out ++ n'.unsent) := by rw [payloads_append, List.append_assoc]
        _ = (payloads outputs ++ n.unsent) ++ reads out := by rw [hunsent, List.append_assoc]
        _ = reads (outputs ++ out) := by rw [hheld, reads_append]
    · obtain ⟨hp, hr⟩ := local_reads hlocal
      rw [payloads_append, reads_append, hp, hr, hs.unsent, List.append_nil, List.append_nil]
      exact hheld
  · intro hall pre event post hsplit hkind
    obtain ⟨hold, hnew⟩ := hbefore hall
    -- the close event was sent before, or is sent now
    have hcases : (∃ rest, outputs = pre ++ .handed (.event event) :: rest) ∨
        ∃ front, pre = outputs ++ front ∧ out = front ++ .handed (.event event) :: post := by
      rcases List.append_eq_append_iff.1 hsplit with ⟨front, hpre, hout⟩ | ⟨rest, houtputs, hrest⟩
      · exact .inr ⟨front, hpre, hout⟩
      · cases rest with
        | nil => exact .inr ⟨[], by rw [houtputs]; simp, by simpa using hrest.symm⟩
        | cons o rest =>
          cases hrest
          exact .inl ⟨rest, houtputs⟩
    rcases hcases with ⟨rest, hrest⟩ | ⟨front, rfl, hout⟩
    · obtain ⟨hreads, hsignals⟩ := h.closed hold pre event rest hrest hkind
      obtain ⟨hnone, hsignals'⟩ := hsilent hall hsignals
      exact ⟨by rw [reads_append, hnone, List.append_nil]; exact hreads, hsignals'⟩
    · have hmem : Output.handed (.event event) ∈ out := by rw [hout]; simp
      rcases step_moves h.fits hstep with ⟨hm, -⟩ | ⟨-, hlocal⟩
      · obtain ⟨hone, hcalm, hsignals⟩ := hm.closes h.fits hkind hmem
        have hfront : front = [] := by
          rw [hone] at hout
          cases front with
          | nil => rfl
          | cons o front => simp at hout
        have hheld := h.held hold
        rw [NativePort.unsent_calm hcalm, List.append_nil] at hheld
        refine ⟨?_, hsignals⟩
        rw [hfront, List.append_nil, hheld, reads_append, hone]
        exact (List.append_nil _).symm
      · exact absurd (hlocal _ hmem) nofun

end Delivered

/-- **The reactor delivers exactly the bytes it read.**  Over every run of a port, whatever its client submits and
whatever the device answers, as long as the callback queue accepts the events:

* the data handed to the callback, and then what the reactor still has in its hands, is what the device returned;
* wherever the reactor has nothing in its hands (at the head of its loop, where it waits, and once it has returned) all
  of it was handed over;
* all of it was handed over before the close event. -/
theorem delivers_reads (inputs : List Input) (n : NativePort) (outputs : List Output)
    (hrun : native.run {} inputs = some (n, outputs)) (haccepts : ∀ event, Output.refused event ∉ outputs) :
    (payloads outputs).flatten ++ n.unsent.flatten = (reads outputs).flatten ∧
    (n.reactor.pc.calm = true → (payloads outputs).flatten = (reads outputs).flatten) ∧
    ∀ pre event post, outputs = pre ++ .handed (.event event) :: post → event.kind = .closed →
      (payloads pre).flatten = (reads outputs).flatten := by
  have h := Machine.run_rule_all (fun _ => Delivered) Delivered.start (fun _ _ _ _ _ _ h => h.step) hrun
  have hheld := h.held haccepts
  refine ⟨?_, ?_, ?_⟩
  · rw [← List.flatten_append, hheld]
  · intro hcalm
    rw [NativePort.unsent_calm hcalm, List.append_nil] at hheld
    rw [hheld]
  · intro pre event post hsplit hkind
    rw [(h.closed haccepts pre event post hsplit hkind).1]

/-- A small read, a read that fills its slice, and a burst of one read that then finds the device gone. -/
theorem delivers_reads_burst : ∃ n outputs,
    native.run {} [.reactor (.opened (.ok ())), .reactor .run, .call (.readCredit 100 5), .advance .pending,
      .advance .pending, .advance .pending, .returns, .reactor .run, .reactor .run, .reactor .received, .reactor .run,
      .reactor .run, .reactor (.transfer (.ready [1]) .pending), .reactor .run, .reactor .run, .reactor .run,
      .reactor .run, .reactor (.transfer (.ready (List.replicate 64 7)) .pending), .reactor .run, .reactor .run,
      .reactor (.tryRead (.ok [2, 3])), .reactor (.tryRead (.ok [])), .reactor .run, .reactor .run, .reactor .run,
      .reactor .run] = some (n, outputs) ∧
    reads outputs = [[1], List.replicate 64 7, [2, 3]] ∧
    (payloads outputs).flatten = (reads outputs).flatten := by
  refine ⟨_, _, rfl, rfl, ?_⟩
  have h := delivers_reads [.reactor (.opened (.ok ())), .reactor .run, .call (.readCredit 100 5), .advance .pending,
      .advance .pending, .advance .pending, .returns, .reactor .run, .reactor .run, .reactor .received, .reactor .run,
      .reactor .run, .reactor (.transfer (.ready [1]) .pending), .reactor .run, .reactor .run, .reactor .run,
      .reactor .run, .reactor (.transfer (.ready (List.replicate 64 7)) .pending), .reactor .run, .reactor .run,
      .reactor (.tryRead (.ok [2, 3])), .reactor (.tryRead (.ok [])), .reactor .run, .reactor .run, .reactor .run,
      .reactor .run] _ _ rfl ?_
  · exact h.2.1 rfl
  · intro event hmem
    simp at hmem

end NodeSerialport.Native
