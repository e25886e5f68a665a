import NodeSerialport.Native.Accounts
/-!
# The callback queue

The open event comes first and the close event last; every other event answers an operation, or carries buffers that
were read for credit.

* `QueueFlow` — what a transition of the reactor sends;
* `QueueFits` — what holds of the queue;
* `QueueFits.length_le`, `replies_le`, `reads_le` — its length, by what it carries.
-/

namespace NodeSerialport.Native


variable {n n' : NativePort} {out : List Output}

def CallbackEvent.closes : CallbackEvent → Bool
  | .event nativeEvent => nativeEvent.kind == .closed
  | _ => false

def CallbackEvent.opens : CallbackEvent → Bool
  | .event nativeEvent => nativeEvent.kind == .opened
  | _ => false

/-- An event of streaming reads. -/
def CallbackEvent.reads : CallbackEvent → Bool
  | .event _ => false
  | _ => true

theorem CallbackEvent.closes_signal {event : CallbackEvent} (h : event.closes = true) : event.signal = true := by
  cases event with
  | event nativeEvent => exact (signal_event (.inr (beq_iff_eq.1 h))).2
  | _ => cases h

theorem CallbackEvent.opens_signal {event : CallbackEvent} (h : event.opens = true) : event.signal = true := by
  cases event with
  | event nativeEvent => exact (signal_event (.inl (beq_iff_eq.1 h))).2
  | _ => cases h

/-- **What a transition sends**: nothing, the open or the close event, or a reply or some data. -/
inductive QueueFlow (n n' : NativePort) : Prop
  | same (callbacks : n'.callbacks = n.callbacks) (signals : n'.reactor.pc.signals ≤ n.reactor.pc.signals)
  | signalled (event : CallbackEvent) (callbacks : n'.callbacks = n.callbacks ++ [event]) (hsignal : event.signal = true)
      (signals : n'.reactor.pc.signals < n.reactor.pc.signals)
      (closes : event.closes = true → n'.reactor.pc.signals = 0)
      (opens : event.opens = true → n.reactor.pc.signals = 2)
  | sent (event : CallbackEvent) (callbacks : n'.callbacks = n.callbacks ++ [event]) (hsignal : event.signal = false)
      (hevent : event.reply?.isSome = true ∨ event.chunks ≠ []) (hsignals : 0 < n.reactor.pc.signals)
      (signals : n'.reactor.pc.signals ≤ n.reactor.pc.signals)

theorem Moves.queueFlow (h : Moves n n' out) (hfits : Fits n) : QueueFlow n n' := by
  have hat : ∀ {pc pc' : Pc}, n.reactor.pc = pc → n'.reactor.pc = pc' → pc'.signals ≤ pc.signals →
      n'.reactor.pc.signals ≤ n.reactor.pc.signals := by
    intro pc pc' h h' hle
    rw [h, h']
    exact hle
  have hpos : ∀ {pc : Pc}, n.reactor.pc = pc → 0 < pc.signals → 0 < n.reactor.pc.signals := by
    intro pc h hlt
    rw [h]
    exact hlt
  cases h with
  | calm k before after => exact .same k.callbacks k.signals
  | refused k after full => exact .same k.callbacks k.signals
  | signalled hsignal hdata =>
    rename_i event pc
    rcases hsignal with ⟨hpc, rfl, hkind⟩ | ⟨⟨result, hpc⟩, rfl, hkind⟩
    · refine .signalled (.event event) rfl (signal_event (.inl hkind)).2 (by rw [hpc]; exact Nat.lt_succ_self 1) ?_
        fun _ => by rw [hpc]; rfl
      intro hcloses
      rw [show event.kind = .closed from beq_iff_eq.1 hcloses] at hkind
      cases hkind
    · refine .signalled (.event event) rfl (signal_event (.inr hkind)).2 (by rw [hpc]; exact Nat.zero_lt_one)
        (fun _ => rfl) ?_
      intro hopens
      rw [show event.kind = .opened from beq_iff_eq.1 hopens] at hkind
      cases hkind
  | executed before hended hcommands hcontrol =>
    refine .same rfl ?_
    show 1 ≤ n.reactor.pc.signals
    by_contra hno
    exact Pc.ended_elim hended (Pc.ended_of_signals (Nat.lt_one_iff.1 (Nat.lt_of_not_le hno)))
  | written hpc => exact .same rfl (hat hpc rfl (le_refl _))
  | popped hpc => exact .same rfl (hat hpc rfl (le_refl _))
  | replied hpc after =>
    rename_i event pc
    have hreply : (CallbackEvent.event event).reply? = some event.id ∧ (CallbackEvent.event event).signal = false := by
      rcases hpc with hpc | hpc
      · exact (hfits.notify hpc).reply
      · exact (hfits.reply hpc).reply
    refine .sent (.event event) rfl hreply.2 (.inl (by rw [hreply.1]; rfl)) ?_ ?_
    · rcases hpc with hpc | hpc <;> exact hpos hpc Nat.zero_lt_one
    · rcases hpc with hpc | hpc <;> rcases after with rfl | rfl <;> exact hat hpc rfl (le_refl _)
  | busy hpc => exact .same rfl (hat hpc rfl (le_refl _))
  | reading hpc => exact .same rfl (hat hpc rfl (le_refl _))
  | credited hpc => exact .same rfl (hat hpc rfl (le_refl _))
  | overdrawn hpc => exact .same rfl (hat hpc rfl (le_refl _))
  | enlisted hpc => exact .same rfl (hat hpc rfl (le_refl _))
  | charged hpc => exact .same rfl (hat hpc rfl (le_refl _))
  | answered hpc => exact .same rfl (hat hpc rfl (le_refl _))
  | wrote hpc => exact .same rfl (hat hpc rfl (le_refl _))
  | chosen hpc after => rcases after with rfl | rfl <;> exact .same rfl (hat hpc rfl (le_refl _))
  | sent hpc after =>
    rename_i length pc
    have hchunks := CallbackEvent.ofRead_chunks (hfits.reading (.inr hpc)).2
    refine .sent _ rfl (ofRead_reply n.reactor.readBuffer length).2 (.inr (by rw [hchunks]; nofun)) ?_ ?_
    · rcases hpc with hpc | hpc <;> exact hpos hpc Nat.zero_lt_one
    · rcases hpc with hpc | hpc <;> rcases after with rfl | ⟨left, rfl⟩ <;> exact hat hpc rfl (le_refl _)
  | followed hpc => exact .same rfl (hat hpc rfl (le_refl _))
  | collected hpc => exact .same rfl (hat hpc rfl (le_refl _))
  | published hpc hevent k after =>
    rename_i result first batch event
    refine .sent event k.callbacks ?_ (.inr ?_) (hpos hpc Nat.zero_lt_one) k.signals
    · rcases hevent with ⟨data, -, rfl⟩ | ⟨-, -, rfl⟩ <;> rfl
    · rcases hevent with ⟨data, -, rfl⟩ | ⟨-, hbatch, rfl⟩
      · exact List.cons_ne_nil _ _
      · exact hbatch
  | unpublished hpc k after => exact .same k.callbacks k.signals

/-- **The callback queue**: one open and one close event at most, the close event last, and every other event answers an
operation or carries data. -/
structure QueueFits (n : NativePort) : Prop where
  signals : n.callbacks.countP CallbackEvent.signal + n.reactor.pc.signals ≤ 2
  counts : ∀ event ∈ n.callbacks, event.signal = true ∨ event.reply?.isSome = true ∨ event.chunks ≠ []
  last : ∀ pre event post, n.callbacks = pre ++ event :: post → event.closes = true →
    post = [] ∧ n.reactor.pc.signals = 0
  opens : n.callbacks.countP CallbackEvent.opens + (n.reactor.pc.signals - 1) ≤ 1

theorem QueueFits.start : QueueFits {} := by
  refine ⟨le_refl 2, fun event hmem => absurd hmem List.not_mem_nil, ?_, le_refl 1⟩
  intro pre event post h
  cases pre <;> cases h

theorem QueueFits.moves (h : QueueFits n) (hm : Moves n n' out) (hfits : Fits n) : QueueFits n' := by
  have hlast : ∀ {event : CallbackEvent}, n'.callbacks = n.callbacks ++ [event] → 0 < n.reactor.pc.signals →
      (event.closes = true → n'.reactor.pc.signals = 0) → ∀ pre e post, n'.callbacks = pre ++ e :: post →
      e.closes = true → post = [] ∧ n'.reactor.pc.signals = 0 := by
    intro event hcallbacks hpos hcloses pre e post hsplit hclose
    rw [hcallbacks] at hsplit
    rcases List.eq_nil_or_concat post with rfl | ⟨post, last, rfl⟩
    · obtain ⟨-, heq⟩ := List.append_inj' hsplit rfl
      cases heq
      exact ⟨rfl, hcloses hclose⟩
    · rw [List.concat_eq_append, ← List.cons_append, ← List.append_assoc] at hsplit
      have hold := h.last pre e post (List.append_inj' hsplit rfl).1 hclose
      omega
  cases hm.queueFlow hfits with
  | same callbacks signals =>
    have hopens := h.opens
    refine ⟨?_, by rw [callbacks]; exact h.counts, ?_, by rw [callbacks]; omega⟩
    · rw [callbacks]
      exact (Nat.add_le_add_left signals _).trans h.signals
    · intro pre e post hsplit hclose
      rw [callbacks] at hsplit
      obtain ⟨hpost, hzero⟩ := h.last pre e post hsplit hclose
      exact ⟨hpost, Nat.le_zero.1 (hzero ▸ signals)⟩
  | signalled event callbacks hsignal signals closes opens =>
    have hold := h.signals
    have hopens := h.opens
    refine ⟨?_, ?_, hlast callbacks (by omega) closes, ?_⟩
    · rw [callbacks, List.countP_append, List.countP_singleton, if_pos hsignal]
      omega
    · intro e he
      rw [callbacks, List.mem_append, List.mem_singleton] at he
      rcases he with he | rfl
      · exact h.counts e he
      · exact .inl hsignal
    · rw [callbacks, List.countP_append, List.countP_singleton]
      split
      · rename_i hopen
        have htwo := opens hopen
        omega
      · omega
  | sent event callbacks hsignal hevent hpos signals =>
    have hold := h.signals
    have hopens := h.opens
    refine ⟨?_, ?_, hlast callbacks hpos fun hclose => ?_, ?_⟩
    · rw [callbacks, List.countP_append, List.countP_singleton, if_neg (by rw [hsignal]; nofun)]
      omega
    · intro e he
      rw [callbacks, List.mem_append, List.mem_singleton] at he
      rcases he with he | rfl
      · exact h.counts e he
      · exact .inr hevent
    · rw [CallbackEvent.closes_signal hclose] at hsignal
      cases hsignal
    · have hno : ¬event.opens = true := fun hopen => by
        rw [CallbackEvent.opens_signal hopen] at hsignal
        cases hsignal
      rw [callbacks, List.countP_append, List.countP_singleton, if_neg hno]
      omega

theorem QueueFits.tail (h : QueueFits n) {event : CallbackEvent} {callbacks : List CallbackEvent}
    (hcallbacks : n.callbacks = event :: callbacks) (hreactor : n'.reactor = n.reactor)
    (hcallbacks' : n'.callbacks = callbacks) : QueueFits n' := by
  have hsignals := h.signals
  have hopens := h.opens
  refine ⟨?_, ?_, ?_, ?_⟩
  · rw [hcallbacks, List.countP_cons] at hsignals
    rw [hcallbacks', hreactor]
    omega
  · intro e he
    rw [hcallbacks'] at he
    exact h.counts e (by rw [hcallbacks]; exact List.mem_cons_of_mem _ he)
  · intro pre e post hsplit
    rw [hcallbacks'] at hsplit
    rw [hreactor]
    exact h.last (event :: pre) e post (by rw [hcallbacks, hsplit]; rfl)
  · rw [hcallbacks, List.countP_cons] at hopens
    rw [hcallbacks', hreactor]
    omega

theorem QueueFits.same (h : QueueFits n) (hreactor : n'.reactor = n.reactor) (hcallbacks : n'.callbacks = n.callbacks) :
    QueueFits n' :=
  ⟨by rw [hcallbacks, hreactor]; exact h.signals, by rw [hcallbacks]; exact h.counts,
    by rw [hcallbacks, hreactor]; exact h.last, by rw [hcallbacks, hreactor]; exact h.opens⟩

/-- **The length of the callback queue**: two signals, the replies, and at most one event for each buffer. -/
theorem QueueFits.length_le (h : QueueFits n) : n.callbacks.length ≤ 2 + n.replies.length + n.buffered.length := by
  have hle : ∀ events : List CallbackEvent,
      (∀ event ∈ events, event.signal = true ∨ event.reply?.isSome = true ∨ event.chunks ≠ []) →
      events.length ≤ events.countP CallbackEvent.signal + (events.filterMap CallbackEvent.reply?).length +
        (events.flatMap CallbackEvent.chunks).length := by
    intro events hcounts
    induction events with
    | nil => exact le_refl 0
    | cons event events ih =>
      have hrest := ih fun e he => hcounts e (List.mem_cons_of_mem _ he)
      have hreplies : (events.filterMap CallbackEvent.reply?).length ≤
          ((event :: events).filterMap CallbackEvent.reply?).length :=
        ((List.sublist_cons_self event events).filterMap _).length_le
      rw [List.countP_cons, List.flatMap_cons, List.length_append, List.length_cons]
      rcases hcounts event List.mem_cons_self with hsignal | hreply | hchunks
      · rw [if_pos hsignal]
        omega
      · obtain ⟨id, hid⟩ := Option.isSome_iff_exists.1 hreply
        rw [List.filterMap_cons_some hid, List.length_cons]
        omega
      · have hpos := List.length_pos_iff.2 hchunks
        omega
  have hsignals := h.signals
  have hlen := hle n.callbacks h.counts
  rw [NativePort.replies, NativePort.buffered, List.length_append, List.length_append]
  omega

/-- The replies in the callback queue. -/
theorem replies_le (n : NativePort) : n.callbacks.countP (fun e => e.reply?.isSome) ≤ n.replies.length := by
  have hcount : n.callbacks.countP (fun e => e.reply?.isSome) = (n.callbacks.filterMap CallbackEvent.reply?).length := by
    rw [List.length_filterMap_eq_countP]
  rw [hcount, NativePort.replies, List.length_append]
  exact Nat.le_add_right _ _

/-- Every event of streaming reads carries a buffer. -/
theorem QueueFits.reads_le (h : QueueFits n) : n.callbacks.countP CallbackEvent.reads ≤ n.buffered.length := by
  have hle : ∀ events : List CallbackEvent,
      (∀ event ∈ events, event.signal = true ∨ event.reply?.isSome = true ∨ event.chunks ≠ []) →
      events.countP CallbackEvent.reads ≤ (events.flatMap CallbackEvent.chunks).length := by
    intro events hcounts
    induction events with
    | nil => exact le_refl 0
    | cons event events ih =>
      have hrest := ih fun e he => hcounts e (List.mem_cons_of_mem _ he)
      have hevent := hcounts event List.mem_cons_self
      rw [List.countP_cons, List.flatMap_cons, List.length_append]
      split
      · rename_i hreads
        have hpos : 0 < event.chunks.length := by
          cases event with
          | event nativeEvent => cases hreads
          | _ => exact List.length_pos_iff.2 (by simpa [CallbackEvent.signal, CallbackEvent.reply?] using hevent)
        omega
      · omega
  rw [NativePort.buffered, List.length_append]
  exact (hle n.callbacks h.counts).trans (Nat.le_add_right _ _)

theorem QueueFits.closes_le (h : QueueFits n) : n.callbacks.countP CallbackEvent.closes ≤ 1 := by
  have hle : ∀ events : List CallbackEvent, (∀ pre event post, events = pre ++ event :: post → event.closes = true →
      post = []) → events.countP CallbackEvent.closes ≤ 1 := by
    intro events hlast
    induction events with
    | nil => exact Nat.zero_le _
    | cons event events ih =>
      rw [List.countP_cons]
      split
      · rename_i hcloses
        rw [hlast [] event events rfl hcloses]
        exact le_refl 1
      · exact ih fun pre e post hsplit => hlast (event :: pre) e post (by rw [hsplit]; rfl)
  exact hle n.callbacks fun pre event post hsplit hcloses => (h.last pre event post hsplit hcloses).1

theorem Moves.accepts (h : Moves n n' out) (hroom : n.Room) (event : CallbackEvent) : Output.refused event ∉ out := by
  cases h with
  | refused k after full => exact absurd hroom full
  | calm | written | popped | busy | reading | credited | overdrawn | enlisted | chosen | collected | unpublished =>
    exact List.not_mem_nil
  | _ => simp

end NodeSerialport.Native
