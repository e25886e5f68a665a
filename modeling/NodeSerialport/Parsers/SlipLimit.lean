import NodeSerialport.Parsers.SlipRoundTrip
import Mathlib.Data.List.TakeWhile

/-!
# SLIP: the frame limit

A decoder with a limit does what the same decoder does without, up to the first frame that is too long; a frame only
grows until it ends, so it makes no difference whether it is found too long at its end or at the end of a chunk.

* `fits`, `Limits` — a frame within the limit, and what a limit does to one call;
* `byteLoop_limits`, `bulkLoop_limits`, `transform_limits`: both paths;
* `Reader.all` — all frames of an input, with the unterminated remainder;
* `slip_decoder_stream`: whole streams, from any state.
-/

namespace NodeSerialport.Parsers

open NodeSerialport.Lib

/-- A frame within the limit, if there is one. -/
def fits (limit : Option ℕ) (frame : Buffer) : Bool :=
  match limit with
  | none => true
  | some L => frame.length ≤ L

theorem fits_of_le {limit : Option ℕ} {a b : Buffer} (h : a.length ≤ b.length) (hb : fits limit b = true) :
    fits limit a = true := by
  cases limit with
  | none => rfl
  | some L =>
    simp only [fits, decide_eq_true_eq] at hb ⊢
    omega

/-! ### Frames up to the first that is too long -/

section

variable {p : Buffer → Bool}

theorem takeWhile_append_of_long {a b b' : List Buffer} (h : ∃ f ∈ a, p f = false) :
    (a ++ b).takeWhile p = (a ++ b').takeWhile p := by
  induction a with
  | nil =>
    obtain ⟨f, hf, -⟩ := h
    cases hf
  | cons f a ih =>
    rw [List.cons_append, List.cons_append]
    cases hf : p f with
    | false => rw [List.takeWhile_cons_of_neg (by simp [hf]), List.takeWhile_cons_of_neg (by simp [hf])]
    | true =>
      rw [List.takeWhile_cons_of_pos hf, List.takeWhile_cons_of_pos hf, ih]
      obtain ⟨g, hg, hlong⟩ := h
      rcases List.mem_cons.1 hg with rfl | hg
      · rw [hf] at hlong
        cases hlong
      · exact ⟨g, hg, hlong⟩

theorem takeWhile_append_head {a : List Buffer} {f f' : Buffer} {b b' : List Buffer} (hf : p f = false) (hf' : p f' = false) :
    (a ++ f :: b).takeWhile p = (a ++ f' :: b').takeWhile p := by
  induction a with
  | nil => simp [hf, hf']
  | cons g a ih =>
    rw [List.cons_append, List.cons_append]
    cases hg : p g with
    | false => rw [List.takeWhile_cons_of_neg (by simp [hg]), List.takeWhile_cons_of_neg (by simp [hg])]
    | true => rw [List.takeWhile_cons_of_pos hg, List.takeWhile_cons_of_pos hg, ih]

end

/-! ### All frames of an input -/

namespace Reader

variable {codes : Codes} {s : SlipSettings}

/-- The frames read, and the unterminated remainder. -/
def all (codes : Codes) (s : SlipSettings) (r : Reader) (input : Buffer) : List Buffer :=
  (readAll codes s r input).2 ++ [(readAll codes s r input).1.pending]

theorem all_append (r : Reader) (a b : Buffer) :
    all codes s r (a ++ b) = (readAll codes s r a).2 ++ all codes s (readAll codes s r a).1 b := by
  unfold all
  rw [readAll_append, List.append_assoc]

theorem push_length (started : Bool) (pending : Buffer) (byte : UInt8) :
    pending.length ≤ (push started pending byte).length := by
  unfold push
  split
  · rw [List.length_append]
    exact Nat.le_add_right _ _
  · exact le_refl _

theorem read_length (r : Reader) (byte : UInt8) :
    (∃ frames, (read codes s r byte).2 = r.pending :: frames) ∨
      (read codes s r byte).2 = [] ∧ r.pending.length ≤ (read codes s r byte).1.pending.length := by
  unfold read
  dsimp only
  split
  · split
    · exact .inr ⟨rfl, push_length _ _ _⟩
    · exact .inl ⟨[], rfl⟩
  · split
    · exact .inr ⟨rfl, le_refl _⟩
    · split
      · exact .inr ⟨rfl, le_refl _⟩
      · split
        · exact .inl ⟨[], rfl⟩
        · exact .inr ⟨rfl, push_length _ _ _⟩

/-- **A frame only grows until it ends**: the next one holds what is pending. -/
theorem all_head (input : Buffer) (r : Reader) :
    ∃ frame frames, all codes s r input = frame :: frames ∧ r.pending.length ≤ frame.length := by
  induction input generalizing r with
  | nil => exact ⟨r.pending, [], rfl, le_refl _⟩
  | cons byte input ih =>
    have hcons : all codes s r (byte :: input) = (read codes s r byte).2 ++ all codes s (read codes s r byte).1 input := by
      unfold all
      rw [readAll_cons, List.append_assoc]
    rw [hcons]
    have hread : (∃ frames, (read codes s r byte).2 = r.pending :: frames) ∨
        (read codes s r byte).2 = [] ∧ r.pending.length ≤ (read codes s r byte).1.pending.length := read_length r byte
    rcases hread with ⟨frames, hframes⟩ | ⟨hnone, hle⟩
    · rw [hframes]
      exact ⟨r.pending, _, rfl, le_refl _⟩
    · obtain ⟨frame, frames, hall, hle'⟩ := ih (read codes s r byte).1
      rw [hnone, List.nil_append, hall]
      exact ⟨frame, frames, rfl, hle.trans hle'⟩

end Reader

/-! ### One call -/

namespace SlipDecoder

/-- The decoder with a limit. -/
def within (d : SlipDecoder) (limit : Option ℕ) : SlipDecoder := { d with maxFrameLength := limit }

variable {s : SlipSettings} {d : SlipDecoder} {r : Reader} {limit : Option ℕ}

theorem Config.append_within (h : Config s d) (limit : Option ℕ) (buffer : Buffer) :
    (d.within limit).append buffer =
      if fits limit (d.bytes.bytes ++ buffer) then some ({ d with bytes := d.bytes.append buffer }.within limit)
      else none := by
  have hlength : d.bytes.length = d.bytes.bytes.length := h.wf.length_eq
  cases limit with
  | none => rfl
  | some L =>
    simp only [SlipDecoder.append, within, fits, hlength, List.length_append, decide_eq_true_eq]
    by_cases hle : d.bytes.bytes.length + buffer.length ≤ L
    · rw [if_pos hle, if_neg (Nat.not_lt.2 hle)]
    · rw [if_neg hle, if_pos (Nat.lt_of_not_le hle)]

theorem Config.emit_within (h : Config s d) (limit : Option ℕ) (buffer : Buffer) :
    (d.within limit).emit buffer =
      if fits limit (d.bytes.bytes ++ buffer) then .ok (d.bytes.bytes ++ buffer, { d with bytes := {} }.within limit)
      else .error .frameTooLarge := by
  unfold SlipDecoder.emit
  rw [h.append_within]
  split
  · rename_i hsome
    split at hsome
    · cases hsome
    · rename_i hlong
      rw [if_neg hlong]
  · rename_i d' hsome
    split at hsome
    · rename_i hfits
      obtain ⟨hq, hb⟩ := ByteQueue.append_spec h.wf buffer
      cases hsome
      rw [if_pos hfits]
      simp only [within, ByteQueue.take_all hq, hb]
    · cases hsome

/-- **What a limit does to a call**: nothing while every frame and the remainder fit, and otherwise the call ends with
an error at the first that does not. -/
inductive Limits (limit : Option ℕ) (o₀ o : Outcome SlipDecoder Buffer ParserError) : Prop
  | within (pushed : o.pushed = o₀.pushed) (error : o.error = none) (state : o.state = o₀.state.within limit)
      (hframes : ∀ frame ∈ o₀.pushed ++ [o₀.state.bytes.bytes], fits limit frame = true)
  | exceeds (pushed : o.pushed = (o₀.pushed ++ [o₀.state.bytes.bytes]).takeWhile (fits limit))
      (error : o.error = some .frameTooLarge)
      (hlong : ∃ frame ∈ o₀.pushed ++ [o₀.state.bytes.bytes], fits limit frame = false)

theorem Config.finish_limits (h : Config s d) (limit : Option ℕ) (buffer : Buffer) :
    Limits limit (d.finish buffer) ((d.within limit).finish buffer) := by
  obtain ⟨hq, hb⟩ := ByteQueue.append_spec h.wf buffer
  unfold SlipDecoder.finish
  rw [h.append, h.append_within]
  cases hfits : fits limit (d.bytes.bytes ++ buffer) with
  | true =>
    refine .within rfl rfl rfl ?_
    intro frame hframe
    obtain rfl := List.mem_singleton.1 hframe
    rw [← hb] at hfits
    exact hfits
  | false =>
    rw [← hb] at hfits
    refine .exceeds ?_ rfl ⟨_, List.mem_singleton_self _, hfits⟩
    show [] = [_].takeWhile _
    rw [List.takeWhile_cons_of_neg (by simp [hfits])]

theorem Limits.pushed {o₀ o : Outcome SlipDecoder Buffer ParserError} (h : Limits limit o₀ o) {frame : Buffer}
    (hframe : fits limit frame = true) : Limits limit (SlipDecoder.pushed frame o₀) (SlipDecoder.pushed frame o) := by
  cases h with
  | within pushed error state hframes =>
    refine .within ?_ error state ?_
    · show frame :: o.pushed = frame :: o₀.pushed
      rw [pushed]
    · intro f hf
      rcases List.mem_cons.1 hf with rfl | hf
      · exact hframe
      · exact hframes f hf
  | exceeds pushed error hlong =>
    refine .exceeds ?_ error ?_
    · show frame :: o.pushed = (frame :: (o₀.pushed ++ _)).takeWhile _
      rw [List.takeWhile_cons_of_pos hframe, pushed]
      rfl
    · obtain ⟨f, hf, hlong⟩ := hlong
      exact ⟨f, List.mem_cons_of_mem _ hf, hlong⟩

theorem Limits.overflow (d' : SlipDecoder) {o₀ : Outcome SlipDecoder Buffer ParserError} {frame : Buffer}
    (hframe : fits limit frame = false) : Limits limit (SlipDecoder.pushed frame o₀) d'.overflow := by
  refine .exceeds ?_ rfl ⟨frame, List.mem_cons_self, hframe⟩
  show [] = (frame :: (o₀.pushed ++ _)).takeWhile _
  rw [List.takeWhile_cons_of_neg (by simp [hframe])]

/-- **The end of a frame**, whatever follows it. -/
theorem Config.emit_limits (h : Config s d) (limit : Option ℕ) (buffer : Buffer)
    {rest₀ rest : SlipDecoder → Outcome SlipDecoder Buffer ParserError}
    (hrest : Limits limit (rest₀ { d with bytes := {} }) (rest ({ d with bytes := {} }.within limit))) :
    Limits limit (match d.emit buffer with
      | .error e => d.fail e
      | .ok (frame, d) => SlipDecoder.pushed frame (rest₀ d))
      (match (d.within limit).emit buffer with
      | .error e => (d.within limit).fail e
      | .ok (frame, d) => SlipDecoder.pushed frame (rest d)) := by
  rw [h.emit, h.emit_within]
  cases hfits : fits limit (d.bytes.bytes ++ buffer) with
  | true => exact hrest.pushed hfits
  | false => exact .overflow _ hfits

/-- **The byte loop with a limit.** -/
theorem byteLoop_limits (limit : Option ℕ) (rest : Buffer) : ∀ (d : SlipDecoder) (decoded : Buffer) (frameStart : ℕ),
    Config s d → Limits limit (d.byteLoop decoded frameStart rest) ((d.within limit).byteLoop decoded frameStart rest) := by
  induction rest with
  | nil =>
    intro d decoded frameStart h
    exact h.finish_limits limit _
  | cons byte rest ih =>
    intro d decoded frameStart h
    have hstart : (if (d.within limit).options.START = none then { d.within limit with started := true }
        else d.within limit) = (if d.options.START = none then { d with started := true } else d).within limit := by
      by_cases hS : d.options.START = none
      · rw [if_pos hS]
        exact if_pos hS
      · rw [if_neg hS]
        exact if_neg hS
    have hconfig : Config s (if d.options.START = none then { d with started := true } else d) := by
      split
      · exact ⟨h.options, h.codes, h.unlimited, h.wf⟩
      · exact h
    simp only [byteLoop]
    rw [hstart]
    generalize (if d.options.START = none then { d with started := true } else d) = d at hconfig ⊢
    have hset : ∀ (started escaped : Bool), Config s { d with started := started, escaped := escaped } :=
      fun _ _ => ⟨hconfig.options, hconfig.codes, hconfig.unlimited, hconfig.wf⟩
    have hempty : ∀ (started escaped : Bool), Config s { d with started := started, escaped := escaped, bytes := {} } :=
      fun _ _ => ⟨hconfig.options, hconfig.codes, hconfig.unlimited, ByteQueue.wf_empty⟩
    by_cases hesc : d.escaped = true
    · rw [if_pos hesc, if_pos (show (d.within limit).escaped = true from hesc)]
      cases hcode : d.codes byte with
      | some code =>
        rw [show (d.within limit).codes byte = some code from hcode]
        exact ih _ _ _ (hset d.started false)
      | none =>
        rw [show (d.within limit).codes byte = none from hcode]
        exact (hset d.started false).emit_limits limit _ (ih _ _ _ (hempty d.started false))
    · rw [if_neg hesc, if_neg (show ¬(d.within limit).escaped = true from hesc)]
      by_cases hS : d.options.START = some byte
      · rw [if_pos hS, if_pos (show (d.within limit).options.START = some byte from hS)]
        exact ih _ _ _ (hset true d.escaped)
      · rw [if_neg hS, if_neg (show ¬(d.within limit).options.START = some byte from hS)]
        by_cases hESC : byte = d.options.ESC
        · rw [if_pos hESC, if_pos (show byte = (d.within limit).options.ESC from hESC)]
          exact ih _ _ _ (hset d.started true)
        · rw [if_neg hESC, if_neg (show ¬byte = (d.within limit).options.ESC from hESC)]
          by_cases hEND : byte = d.options.END
          · rw [if_pos hEND, if_pos (show byte = (d.within limit).options.END from hEND)]
            exact hconfig.emit_limits limit _ (ih _ _ _ (hempty false d.escaped))
          · rw [if_neg hEND, if_neg (show ¬byte = (d.within limit).options.END from hEND)]
            exact ih _ _ _ hconfig

theorem bulkLoop_none {chunk : Buffer} {offset : ℕ} (h : Buffer.indexOf chunk d.options.END offset = none) :
    d.bulkLoop chunk offset = d.finish (chunk.drop offset) := by
  rw [bulkLoop]
  split
  · rfl
  · rename_i hidx
    rw [h] at hidx
    cases hidx

theorem bulkLoop_some {chunk : Buffer} {offset stop : ℕ} (h : Buffer.indexOf chunk d.options.END offset = some stop) :
    d.bulkLoop chunk offset = match d.emit (Buffer.subarray chunk offset stop) with
      | .error e => d.fail e
      | .ok (frame, d) => pushed frame (d.bulkLoop chunk (stop + 1)) := by
  rw [bulkLoop]
  split
  · rename_i hidx
    rw [h] at hidx
    cases hidx
  · rename_i stop' hidx
    rw [h] at hidx
    cases hidx
    rfl

/-- **The bulk path with a limit.** -/
theorem bulkLoop_limits (limit : Option ℕ) (chunk : Buffer) : ∀ (n : ℕ) (d : SlipDecoder) (offset : ℕ),
    chunk.length - offset = n → Config s d →
    Limits limit (d.bulkLoop chunk offset) ((d.within limit).bulkLoop chunk offset) := by
  intro n
  induction n using Nat.strong_induction_on with
  | _ n ih =>
    intro d offset hn h
    cases hidx : Buffer.indexOf chunk d.options.END offset with
    | none =>
      rw [bulkLoop_none hidx, bulkLoop_none (show Buffer.indexOf chunk (d.within limit).options.END offset = none from hidx)]
      exact h.finish_limits limit _
    | some stop =>
      rw [bulkLoop_some hidx,
        bulkLoop_some (show Buffer.indexOf chunk (d.within limit).options.END offset = some stop from hidx)]
      have hb := indexOf_bounds hidx
      have hempty : Config s { d with bytes := {} } := ⟨h.options, h.codes, h.unlimited, ByteQueue.wf_empty⟩
      exact h.emit_limits limit _ (ih (chunk.length - (stop + 1)) (by omega) { d with bytes := {} } (stop + 1) rfl hempty)

/-- **One call with a limit**, whichever path it takes. -/
theorem transform_limits (h : Config s d) (limit : Option ℕ) (chunk : Buffer) :
    Limits limit (d.transform chunk) ((d.within limit).transform chunk) := by
  unfold transform
  by_cases hc : chunk.length ≥ 256 ∧ d.options.START = none ∧ d.escaped = false ∧
      Buffer.indexOf chunk d.options.ESC 0 = none
  · rw [if_pos hc, if_pos (show chunk.length ≥ 256 ∧ (d.within limit).options.START = none ∧
      (d.within limit).escaped = false ∧ Buffer.indexOf chunk (d.within limit).options.ESC 0 = none from hc)]
    exact bulkLoop_limits limit chunk _ d 0 rfl h
  · rw [if_neg hc, if_neg (show ¬(chunk.length ≥ 256 ∧ (d.within limit).options.START = none ∧
      (d.within limit).escaped = false ∧ Buffer.indexOf chunk (d.within limit).options.ESC 0 = none) from hc)]
    exact byteLoop_limits limit chunk d [] 0 h

/-! ### Whole streams -/

/-- `d` stands where the machine stands, and what it has buffered is within its limit. -/
def Standing (s : SlipSettings) (limit : Option ℕ) (d : SlipDecoder) (r : Reader) : Prop :=
  ∃ d₀, At s d₀ [] r ∧ d = d₀.within limit ∧ fits limit r.pending = true

theorem Standing.start (s : SlipSettings) (limit : Option ℕ) : Standing s limit (new s limit) {} := by
  refine ⟨new s none, ⟨⟨rfl, rfl, rfl, ByteQueue.wf_empty⟩, rfl, rfl, fun _ => rfl⟩, rfl, ?_⟩
  cases limit <;> simp [fits]

theorem Standing.length_le (h : Standing s limit d r) {L : ℕ} (hlimit : limit = some L) : d.bytes.length ≤ L := by
  obtain ⟨d₀, hat, rfl, hfits⟩ := h
  have hpending := hat.pending
  rw [List.append_nil] at hpending
  rw [hlimit, fits, decide_eq_true_eq, ← hpending] at hfits
  exact hat.wf.length_eq.trans_le hfits

theorem Standing.flush (h : Standing s limit d r) : (d.flush).pushed = [r.pending] ∧ (d.flush).error = none := by
  obtain ⟨d₀, hat, rfl, -⟩ := h
  have hpending := hat.pending
  rw [List.append_nil] at hpending
  have htake : ({ d₀ with maxFrameLength := limit } : SlipDecoder).bytes.take d₀.bytes.length = .ok (r.pending, {}) := by
    rw [← hpending]
    exact ByteQueue.take_all hat.wf
  unfold SlipDecoder.flush within
  rw [htake]
  exact ⟨rfl, rfl⟩

/-- **What is read from an input** in one call, or in several: its frames, or what precedes the first that is too long. -/
inductive Decodes (s : SlipSettings) (limit : Option ℕ) (r : Reader) (input : Buffer)
    (o : Outcome SlipDecoder Buffer ParserError) : Prop
  | all (error : o.error = none) (pushed : o.pushed = (r.readAll (new s none).codes s input).2)
      (state : Standing s limit o.state (r.readAll (new s none).codes s input).1)
      (hframes : ∀ frame ∈ r.all (new s none).codes s input, fits limit frame = true)
  | cut (error : o.error = some .frameTooLarge)
      (pushed : o.pushed = (r.all (new s none).codes s input).takeWhile (fits limit))
      (hlong : ∃ frame ∈ r.all (new s none).codes s input, fits limit frame = false)

theorem Standing.transform (h : Standing s limit d r) (chunk : Buffer) : Decodes s limit r chunk (d.transform chunk) := by
  obtain ⟨d₀, hat, rfl, -⟩ := h
  obtain ⟨-, hpushed, hstate⟩ := transform_spec hat chunk
  have hpending := hstate.pending
  rw [List.append_nil] at hpending
  have hall : r.all (new s none).codes s chunk = (d₀.transform chunk).pushed ++ [(d₀.transform chunk).state.bytes.bytes] := by
    rw [Reader.all, ← hpushed, hpending]
  cases transform_limits hat.toConfig limit chunk with
  | within pushed error state hframes =>
    rw [← hall] at hframes
    refine .all error (pushed.trans hpushed) ⟨_, hstate, state, ?_⟩ hframes
    exact hframes _ (List.mem_append_right _ (List.mem_singleton_self _))
  | exceeds pushed error hlong =>
    rw [← hall] at pushed hlong
    exact .cut error pushed hlong

theorem all_cut {a b : Buffer} (hlong : ∃ frame ∈ r.all (new s none).codes s a, fits limit frame = false) :
    (r.all (new s none).codes s a).takeWhile (fits limit) = (r.all (new s none).codes s (a ++ b)).takeWhile (fits limit) ∧
      ∃ frame ∈ r.all (new s none).codes s (a ++ b), fits limit frame = false := by
  obtain ⟨frame, frames, hhead, hle⟩ : ∃ frame frames,
      (r.readAll (new s none).codes s a).1.all (new s none).codes s b = frame :: frames ∧ _ := Reader.all_head b _
  rw [Reader.all_append, hhead]
  obtain ⟨f, hf, hno⟩ := hlong
  rcases List.mem_append.1 hf with hframe | hpending
  · exact ⟨takeWhile_append_of_long ⟨f, hframe, hno⟩, f, List.mem_append_left _ hframe, hno⟩
  · obtain rfl := List.mem_singleton.1 hpending
    have hno' : fits limit frame = false := by
      by_contra hfits
      rw [fits_of_le hle (by simpa using hfits)] at hno
      cases hno
    exact ⟨takeWhile_append_head hno hno', frame, List.mem_append_right _ List.mem_cons_self, hno'⟩

/-- **Chunks** are decoded as their concatenation is. -/
theorem Standing.run (h : Standing s limit d r) (chunks : List Buffer) :
    Decodes s limit r chunks.flatten (stream.run d chunks) := by
  induction chunks generalizing d r with
  | nil =>
    obtain ⟨d₀, hat, hd, hfits⟩ := h
    refine .all rfl rfl ⟨d₀, hat, hd, hfits⟩ ?_
    intro frame hframe
    obtain rfl := List.mem_singleton.1 hframe
    exact hfits
  | cons chunk chunks ih =>
    rw [List.flatten_cons]
    cases h.transform chunk with
    | cut error pushed hlong =>
      obtain ⟨hcut, hlong'⟩ := all_cut (b := chunks.flatten) hlong
      rw [Transform.run_cons_of_error error]
      exact .cut error (pushed.trans hcut) hlong'
    | all error pushed state hframes =>
      have hfirst : ∀ frame ∈ (r.readAll (new s none).codes s chunk).2, fits limit frame = true :=
        fun frame hframe => hframes frame (List.mem_append_left _ hframe)
      have hpushed : (stream.transform d chunk).pushed = (r.readAll (new s none).codes s chunk).2 := pushed
      rw [Transform.run_cons_of_ok error, hpushed]
      cases ih state with
      | all error' pushed' state' hframes' =>
        refine .all error' ?_ ?_ ?_
        · rw [Reader.readAll_append, ← pushed']
          rfl
        · rw [Reader.readAll_append]
          exact state'
        · rw [Reader.all_append]
          intro frame hframe
          rcases List.mem_append.1 hframe with hframe | hframe
          · exact hfirst frame hframe
          · exact hframes' frame hframe
      | cut error' pushed' hlong' =>
        refine .cut error' ?_ ?_
        · rw [Reader.all_append, List.takeWhile_append_of_pos hfirst, ← pushed']
          rfl
        · rw [Reader.all_append]
          obtain ⟨frame, hframe, hno⟩ := hlong'
          exact ⟨frame, List.mem_append_right _ hframe, hno⟩

theorem Standing.runEnd (h : Standing s limit d r) (chunks : List Buffer) :
    (stream.runEnd d chunks).pushed = (r.all (new s none).codes s chunks.flatten).takeWhile (fits limit) ∧
    (stream.runEnd d chunks).error =
      if ∀ frame ∈ r.all (new s none).codes s chunks.flatten, fits limit frame = true then none
      else some .frameTooLarge := by
  cases h.run chunks with
  | all error pushed state hframes =>
    obtain ⟨hflush, hok⟩ := state.flush
    rw [Transform.runEnd_of_ok error, if_pos hframes, pushed, List.takeWhile_eq_self_iff.2 hframes]
    exact ⟨congrArg _ hflush, hok⟩
  | cut error pushed hlong =>
    have hend : stream.runEnd d chunks = ⟨(stream.run d chunks).state, (stream.run d chunks).pushed, some .frameTooLarge⟩ := by
      simp only [Transform.runEnd, error]
    rw [hend, if_neg ?_]
    · exact ⟨pushed, rfl⟩
    · intro hall
      obtain ⟨frame, hframe, hno⟩ := hlong
      rw [hall frame hframe] at hno
      cases hno

/-- **Decoding depends only on the byte stream**, with a limit or without.  From any state that earlier chunks left:

* the buffers pushed are the frames of the concatenated input, its unterminated remainder included, up to the first
  that is longer than the limit, and the error is raised exactly where there is such a frame;
* so both are the same for every way of cutting the input;
* after chunks that raised no error, no more bytes are buffered than the limit allows. -/
theorem slip_decoder_stream (s : SlipSettings) (limit : Option ℕ) (earlier : List Buffer)
    (hearlier : (stream.run (new s limit) earlier).error = none) (chunks : List Buffer) :
    let d := (stream.run (new s limit) earlier).state
    let r := (Reader.readAll (new s none).codes s {} earlier.flatten).1
    let frames := r.all (new s none).codes s chunks.flatten
    (stream.runEnd d chunks).pushed = frames.takeWhile (fits limit) ∧
    (stream.runEnd d chunks).error =
      (if ∀ frame ∈ frames, fits limit frame = true then none else some .frameTooLarge) ∧
    (∀ chunks' : List Buffer, chunks'.flatten = chunks.flatten →
      (stream.runEnd d chunks').pushed = (stream.runEnd d chunks).pushed ∧
        (stream.runEnd d chunks').error = (stream.runEnd d chunks).error) ∧
    ((stream.run d chunks).error = none → ∀ L, limit = some L → (stream.run d chunks).state.bytes.length ≤ L) := by
  have hstanding : Standing s limit (stream.run (new s limit) earlier).state
      (Reader.readAll (new s none).codes s {} earlier.flatten).1 := by
    cases (Standing.start s limit).run earlier with
    | all error pushed state hframes => exact state
    | cut error =>
      rw [hearlier] at error
      cases error
  intro d r frames
  obtain ⟨hpushed, herror⟩ := hstanding.runEnd chunks
  refine ⟨hpushed, herror, ?_, ?_⟩
  · intro chunks' hsame
    obtain ⟨hpushed', herror'⟩ := hstanding.runEnd chunks'
    rw [hsame] at hpushed' herror'
    exact ⟨hpushed'.trans hpushed.symm, herror'.trans herror.symm⟩
  · intro hok L hlimit
    cases hstanding.run chunks with
    | all error pushed state hframes => exact state.length_le hlimit
    | cut error =>
      have hno : none = some ParserError.frameTooLarge := hok.symm.trans error
      cases hno

/-- Two bytes are buffered already; the frame that ends next is within the limit of three, the one after it is not. -/
theorem slip_decoder_stream_limit : ∃ d, create {} (some 3) = .ok d ∧
    (stream.run d [[1, 2]]).error = none ∧
    (stream.runEnd (stream.run d [[1, 2]]).state [[3, 0xc0, 4], [5, 6, 7]]).pushed = [[1, 2, 3]] ∧
    (stream.runEnd (stream.run d [[1, 2]]).state [[3, 0xc0, 4], [5, 6, 7]]).error = some .frameTooLarge := by
  have hearlier : (stream.run (new {} (some 3)) [[1, 2]]).error = none := by decide
  have h := slip_decoder_stream {} (some 3) [[1, 2]] hearlier [[3, 0xc0, 4], [5, 6, 7]]
  refine ⟨new {} (some 3), create_eq_ok.2 ⟨_, _, rfl, rfl, rfl⟩, hearlier, h.1.trans ?_, h.2.1.trans ?_⟩
  · decide
  · decide

end SlipDecoder

end NodeSerialport.Parsers
