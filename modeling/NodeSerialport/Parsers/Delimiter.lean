import NodeSerialport.Lib.Transform
import NodeSerialport.Parsers.Matcher
import Mathlib.Data.List.TakeWhile

/-!
# `DelimiterParser`

The parser walks a chunk from delimiter to delimiter.  A frame that lies inside the chunk is pushed as a view of it;
a frame that began in earlier chunks is assembled in the queue.

* `Holds p s` — the parser is in step with a stream whose bytes since the last delimiter are `s`;
* `Cuts`, `transformLoop_cuts`: a call of `_transform` pushes the frames that the chunk completes, up to the first that
  is too long;
* `delimiter_framing`: the buffers pushed over a whole input, flush included, are the frames of the concatenated
  input and its remainder;
* `delimiter_limit`: the same with a limit, which is raised exactly.
-/

namespace NodeSerialport.Parsers

open NodeSerialport.Lib NodeSerialport.Lib.Border NodeSerialport.Lib.Frames

structure DelimiterParser where
  bytes : ByteQueue := {}
  matcher : DelimiterMatcher
  includeDelimiter : Bool
  maxFrameLength : Option ℕ

namespace DelimiterParser

def delimiter (p : DelimiterParser) : Buffer := p.matcher.delimiter

/-- The constructor; `includeDelimiter` defaults to `false`. -/
def create (delimiter : Option Buffer) (includeDelimiter : Bool := false) (maxFrameLength : Option ℤ := none) :
    Except String DelimiterParser := do
  let matcher ← DelimiterMatcher.create delimiter
  let maxFrameLength ← checkMaxFrameLength maxFrameLength
  return { matcher, includeDelimiter, maxFrameLength }

/-- `length` is over the limit, where there is one. -/
def exceeds (p : DelimiterParser) (length : ℕ) : Bool :=
  match p.maxFrameLength with
  | none => false
  | some limit => length > limit

/-- `#overflow`: release the buffered frame and report the error. -/
def overflow (p : DelimiterParser) : Outcome DelimiterParser Buffer ParserError :=
  ⟨{ p with bytes := p.bytes.clear }, [], some .frameTooLarge⟩

/-- The frame that the delimiter ending at `stop` completes, and the queue it leaves. -/
def frame (p : DelimiterParser) (chunk : Buffer) (offset stop : ℕ) : Except String (Buffer × ByteQueue) :=
  let excluded := if p.includeDelimiter then 0 else p.delimiter.length
  if p.bytes.length ≠ 0 then do
    let bytes := p.bytes.append (chunk.subarray offset stop)
    let (frame, bytes) ← bytes.take (bytes.length - excluded)
    return (frame, bytes.clear)
  else return (chunk.subarray offset (stop - excluded), p.bytes)

/-- The loop of `_transform`, from `offset` on, and what follows it. -/
def transformLoop (p : DelimiterParser) (chunk : Buffer) (offset : ℕ) :
    Outcome DelimiterParser Buffer ParserError :=
  match _h : p.matcher.find chunk offset with
  | (some stop, matcher) =>
    let p : DelimiterParser := { p with matcher := matcher }
    if p.exceeds (p.bytes.length + stop - offset - p.delimiter.length) then p.overflow
    else
      match p.frame chunk offset stop with
      | .error message => ⟨p, [], some (.thrown message)⟩
      | .ok (frame, bytes) =>
        let rest := transformLoop { p with bytes := bytes } chunk stop
        ⟨rest.state, frame :: rest.pushed, rest.error⟩
  | (none, matcher) =>
    let p : DelimiterParser := { p with matcher := matcher }
    -- a suffix that could still be a delimiter is not payload until resolved
    if p.exceeds (p.bytes.length + chunk.length - offset - p.matcher.pendingBytes) then p.overflow
    else ⟨{ p with bytes := p.bytes.append (chunk.drop offset) }, [], none⟩
termination_by chunk.length - offset
decreasing_by
  have := DelimiterMatcher.find_bounds _h
  omega

def transform (p : DelimiterParser) (chunk : Buffer) : Outcome DelimiterParser Buffer ParserError :=
  p.transformLoop chunk 0

def flush (p : DelimiterParser) : Outcome DelimiterParser Buffer ParserError :=
  if p.exceeds p.bytes.length then p.overflow
  else
    match p.bytes.take p.bytes.length with
    | .error message => ⟨p, [], some (.thrown message)⟩
    | .ok (frame, bytes) => ⟨{ p with bytes := bytes }, [frame], none⟩

/-- The parser as a transform stream. -/
def stream : Transform DelimiterParser UInt8 Buffer ParserError where
  transform := transform
  flush := flush

/-! ### One call of `_transform` -/

/-- What is pushed for a frame with the given payload. -/
def wrap (p : DelimiterParser) (payload : Buffer) : Buffer :=
  if p.includeDelimiter then payload ++ p.delimiter else payload

/-- The parser is in step with a stream whose bytes since the last delimiter are `s`. -/
structure Holds (p : DelimiterParser) (s : Buffer) : Prop where
  bytes_wf : p.bytes.WF
  bytes_eq : p.bytes.bytes = s
  matcher_wf : p.matcher.WF
  tracks : p.matcher.Tracks s

theorem Holds.length_eq {p : DelimiterParser} {s : Buffer} (h : p.Holds s) : p.bytes.length = s.length := by
  rw [h.bytes_wf.length_eq, h.bytes_eq]

theorem take_append_of_suffix {d x : Buffer} (h : d <:+ x) : x.take (x.length - d.length) ++ d = x := by
  have hd := List.suffix_iff_eq_drop.1 h
  conv_lhs => rw [hd]
  rw [List.length_drop]
  have := h.length_le
  rw [show x.length - (x.length - (x.length - d.length)) = x.length - d.length by omega]
  exact List.take_append_drop _ _

/-- The frame pushed for a delimiter that ends `e` bytes behind `offset`. -/
theorem frame_spec {p : DelimiterParser} {s chunk : Buffer} {offset e : ℕ} (h : p.Holds s)
    (he : FirstEnd p.delimiter s (chunk.drop offset) e) :
    ∃ bytes, p.frame chunk offset (offset + e) =
        .ok (p.wrap ((s ++ (chunk.drop offset).take e).take (s.length + e - p.delimiter.length)), bytes) ∧
      bytes.WF ∧ bytes.bytes = [] := by
  obtain ⟨h1, h2, h3⟩ := he
  rw [List.length_drop] at h1
  have hlen : (s ++ (chunk.drop offset).take e).length = s.length + e := by
    rw [List.length_append, List.length_take, List.length_drop]
    omega
  have hsuf := take_append_of_suffix h2
  rw [hlen] at hsuf
  have hdl := h2.length_le
  rw [hlen] at hdl
  have hsub : Buffer.subarray chunk offset (offset + e) = (chunk.drop offset).take e := by
    rw [Buffer.subarray, Nat.add_sub_cancel_left]
  by_cases hb : p.bytes.length ≠ 0
  · -- the frame began in an earlier chunk
    obtain ⟨hq, hqb⟩ := ByteQueue.append_spec h.bytes_wf ((chunk.drop offset).take e)
    have hql := hq.length_eq
    rw [hqb, h.bytes_eq] at hql
    rw [hlen] at hql
    obtain ⟨q', ht, -, -⟩ := ByteQueue.take_spec hq
      (n := (p.bytes.append ((chunk.drop offset).take e)).length -
        (if p.includeDelimiter then 0 else p.delimiter.length)) (Nat.sub_le _ _)
    refine ⟨{}, ?_, ByteQueue.wf_empty, rfl⟩
    simp only [frame, if_pos hb, hsub, ht]
    rw [hqb, h.bytes_eq, hql]
    cases hinc : p.includeDelimiter with
    | true =>
      simp only [wrap, hinc, if_true, hsuf, Nat.sub_zero]
      rw [List.take_of_length_le (by omega)]
      rfl
    | false =>
      simp only [wrap, hinc, Bool.false_eq_true, if_false]
      rfl
  · -- nothing buffered: the frame is a view of the chunk
    have hs : s = [] := by
      have := h.length_eq
      exact List.length_eq_zero_iff.1 (by omega)
    subst hs
    refine ⟨p.bytes, ?_, h.bytes_wf, h.bytes_eq⟩
    simp only [frame, if_neg hb, List.nil_append, List.length_nil, Nat.zero_add] at hsuf hdl hlen ⊢
    cases hinc : p.includeDelimiter with
    | true =>
      simp only [wrap, hinc, if_true, hsuf, Nat.sub_zero, hsub]
      rfl
    | false =>
      simp only [wrap, hinc, Bool.false_eq_true, if_false, Buffer.subarray]
      rw [List.take_take, min_eq_left (Nat.sub_le _ _), show offset + e - p.delimiter.length - offset =
        e - p.delimiter.length by omega]
      rfl

theorem exceeds_of_none {p : DelimiterParser} (h : p.maxFrameLength = none) (length : ℕ) :
    p.exceeds length = false := by
  simp [exceeds, h]

/-- `q` has the settings of `p`. -/
structure Like (p q : DelimiterParser) : Prop where
  delimiter : q.delimiter = p.delimiter
  includeDelimiter : q.includeDelimiter = p.includeDelimiter
  maxFrameLength : q.maxFrameLength = p.maxFrameLength

theorem Like.refl (p : DelimiterParser) : Like p p := ⟨rfl, rfl, rfl⟩

theorem Like.trans {p q r : DelimiterParser} (h : Like p q) (h' : Like q r) : Like p r :=
  ⟨h'.delimiter.trans h.delimiter, h'.includeDelimiter.trans h.includeDelimiter,
    h'.maxFrameLength.trans h.maxFrameLength⟩

theorem Like.wrap {p q : DelimiterParser} (h : Like p q) : q.wrap = p.wrap := by
  funext payload
  simp only [DelimiterParser.wrap, h.delimiter, h.includeDelimiter]

theorem Like.exceeds {p q : DelimiterParser} (h : Like p q) (length : ℕ) : q.exceeds length = p.exceeds length := by
  simp only [DelimiterParser.exceeds, h.maxFrameLength]

theorem exceeds_of_le {p : DelimiterParser} {m n : ℕ} (h : p.exceeds m) (hle : m ≤ n) : p.exceeds n := by
  unfold exceeds at h ⊢
  split at h
  · exact h
  · rw [decide_eq_true_eq] at h ⊢
    omega

/-- What a parser in step with `s` does with further input: it pushes the frames that the input completes, and the
cutting of any continuation goes on with the bytes it keeps; or it stops before the first part that is too long. -/
inductive Cuts (p : DelimiterParser) (s input : Buffer) (o : Outcome DelimiterParser Buffer ParserError) : Prop
  | all {F : List Buffer} {s' : Buffer} (error : o.error = none) (pushed : o.pushed = F.map p.wrap)
      (like : Like p o.state) (holds : o.state.Holds s')
      (hpending : p.exceeds (s'.length - o.state.matcher.pendingBytes) = false)
      (hfit : ∀ payload ∈ F, p.exceeds payload.length = false)
      (hframes : ∀ rest, frames p.delimiter (s ++ input ++ rest) =
        (F ++ (frames p.delimiter (s' ++ rest)).1, (frames p.delimiter (s' ++ rest)).2))
  | cut {F : List Buffer} (error : o.error = some .frameTooLarge) (pushed : o.pushed = F.map p.wrap)
      (hfit : ∀ payload ∈ F, p.exceeds payload.length = false)
      (hlong : ∀ rest, ∃ long later, parts p.delimiter (s ++ input ++ rest) = F ++ long :: later ∧
        p.exceeds long.length)

/-- **One call of `_transform`**: it walks the chunk from delimiter to delimiter, and checks every frame. -/
theorem transformLoop_cuts : ∀ (n : ℕ) (p : DelimiterParser) (chunk : Buffer) (offset : ℕ) (s : Buffer),
    chunk.length - offset = n → offset ≤ chunk.length → p.Holds s →
    Cuts p s (chunk.drop offset) (p.transformLoop chunk offset) := by
  intro n
  induction n using Nat.strong_induction_on with
  | _ n ih =>
    intro p chunk offset s hn hoff h
    have hlen := h.length_eq
    rw [transformLoop]
    obtain ⟨e, he, hfind⟩ | ⟨hno, m', hfind, hsame, htr⟩ :=
      DelimiterMatcher.find_spec h.matcher_wf h.tracks hoff
    · -- a delimiter ends `e` bytes further on
      have hb := DelimiterMatcher.find_bounds hfind
      have hcut := parts_firstEnd_append (p := p.delimiter) p.matcher.nonempty h.tracks.noEnd he
      have hcut' := frames_firstEnd_append (p := p.delimiter) p.matcher.nonempty h.tracks.noEnd he
      have hsuffix := he.2.1.length_le
      rw [List.length_append, List.length_take, List.length_drop] at hsuffix
      set payload : Buffer := (s ++ (chunk.drop offset).take e).take (s.length + e - p.delimiter.length) with hpayload
      have hsize : payload.length = s.length + e - p.delimiter.length := by
        rw [hpayload, List.length_take, List.length_append, List.length_take, List.length_drop]
        omega
      set p₁ : DelimiterParser := { p with matcher := p.matcher.reset } with hp₁
      have hexceeds : p₁.exceeds (p.bytes.length + (offset + e) - offset - p.delimiter.length) =
          p.exceeds payload.length := by
        rw [hsize, hlen, show s.length + (offset + e) - offset = s.length + e by omega]
        rfl
      split
      · rename_i stop m'' hf
        rw [hfind] at hf
        obtain ⟨rfl, rfl⟩ : offset + e = stop ∧ p.matcher.reset = m'' := by simpa using hf
        simp only [← hp₁]
        have hdel : p₁.delimiter.length = p.delimiter.length := rfl
        rw [hdel, hexceeds]
        cases hlong : p.exceeds payload.length with
        | true => exact .cut (F := []) rfl rfl (by simp) fun rest => ⟨payload, _, hcut rest, hlong⟩
        | false =>
          obtain ⟨q, hframe, hqwf, hqb⟩ := frame_spec h he
          have hframe₁ : p₁.frame chunk offset (offset + e) = p.frame chunk offset (offset + e) := rfl
          have hholds : ({ p₁ with bytes := q } : DelimiterParser).Holds [] :=
            ⟨hqwf, hqb, h.matcher_wf, DelimiterMatcher.tracks_nil rfl⟩
          have hrec := ih (chunk.length - (offset + e)) (by omega) { p₁ with bytes := q } chunk (offset + e) [] rfl
            hb.2 hholds
          simp only [Bool.false_eq_true, if_false, hframe₁, hframe]
          cases hrec with
          | @all F s' error pushed like holds hpending hfit hframes =>
            refine .all (F := payload :: F) error (by rw [List.map_cons, pushed]; rfl)
              ⟨like.delimiter, like.includeDelimiter, like.maxFrameLength⟩ holds hpending ?_ ?_
            · simp only [List.forall_mem_cons]
              exact ⟨hlong, hfit⟩
            · intro rest
              have hrest : frames p.delimiter ([] ++ chunk.drop (offset + e) ++ rest) = _ := hframes rest
              rw [List.nil_append] at hrest
              rw [hcut', List.drop_drop, hrest]
              rfl
          | @cut F error pushed hfit hlong' =>
            refine .cut (F := payload :: F) error (by rw [List.map_cons, pushed]; rfl) ?_ ?_
            · simp only [List.forall_mem_cons]
              exact ⟨hlong, hfit⟩
            · intro rest
              obtain ⟨long, later, hparts, hexceeds⟩ := hlong' rest
              have hrest : parts p.delimiter ([] ++ chunk.drop (offset + e) ++ rest) = _ := hparts
              rw [List.nil_append] at hrest
              exact ⟨long, later, by rw [hcut, List.drop_drop, hrest]; rfl, hexceeds⟩
      · rename_i m'' hf
        rw [hfind] at hf
        cases hf
    · -- no delimiter ends in the rest of the chunk
      split
      · rename_i stop m'' hf
        rw [hfind] at hf
        cases hf
      · rename_i m'' hf
        rw [hfind] at hf
        obtain rfl : m' = m'' := by simpa using hf
        have hdel : m'.delimiter = p.delimiter := hsame.1
        have hsize : p.bytes.length + chunk.length - offset = (s ++ chunk.drop offset).length := by
          rw [hlen, List.length_append, List.length_drop]
          omega
        simp only [hsize]
        cases hlong : ({ p with matcher := m' } : DelimiterParser).exceeds
            ((s ++ chunk.drop offset).length - m'.pendingBytes) with
        | true =>
          refine .cut (F := []) rfl rfl (by simp) fun rest => ?_
          obtain ⟨part, later, hparts, hle⟩ := parts_head m'.nonempty htr.noEnd htr.longest rest
          rw [hdel] at hparts
          exact ⟨part, later, hparts, exceeds_of_le hlong (by unfold DelimiterMatcher.pendingBytes; omega)⟩
        | false =>
          obtain ⟨hq, hqb⟩ := ByteQueue.append_spec h.bytes_wf (chunk.drop offset)
          simp only [Bool.false_eq_true, if_false]
          refine .all (F := []) rfl rfl ⟨hdel, rfl, rfl⟩
            ⟨hq, by rw [hqb, h.bytes_eq], hsame.wf h.matcher_wf, htr⟩ hlong (by simp) ?_
          intro rest
          rw [List.nil_append]

/-! ### The whole input -/

/-- A parser in step with `s`, whose bytes are not too many. -/
structure Within (p : DelimiterParser) (s : Buffer) : Prop where
  holds : p.Holds s
  pending : p.exceeds (s.length - p.matcher.pendingBytes) = false

/-- **The parser after a run of chunks**: the input read so far is cut into what was pushed and what is kept, or
some part of it is too long. -/
theorem run_cuts {p : DelimiterParser} {s : Buffer} (h : p.Within s) (chunks : List Buffer) :
    Cuts p s chunks.flatten (stream.run p chunks) := by
  induction chunks generalizing p s with
  | nil =>
    refine .all (F := []) rfl rfl (.refl p) h.holds h.pending (by simp) fun rest => ?_
    rw [List.flatten_nil, List.append_nil, List.nil_append]
  | cons chunk chunks ih =>
    have hfirst : Cuts p s chunk (stream.transform p chunk) :=
      transformLoop_cuts _ p chunk 0 s rfl (Nat.zero_le _) h.holds
    cases hfirst with
    | @cut F error pushed hfit hlong =>
      rw [Transform.run_cons_of_error error]
      refine .cut error pushed hfit fun rest => ?_
      obtain ⟨long, later, hparts, hexceeds⟩ := hlong (chunks.flatten ++ rest)
      refine ⟨long, later, ?_, hexceeds⟩
      rw [← hparts, List.flatten_cons]
      simp only [List.append_assoc]
    | @all F s' error pushed like holds hpending hfit hframes =>
      rw [Transform.run_cons_of_ok error]
      have hwithin : ((stream.transform p chunk).state).Within s' := by
        refine ⟨holds, ?_⟩
        rw [like.exceeds]
        exact hpending
      have hassoc (rest : Buffer) : s ++ (chunk :: chunks).flatten ++ rest = s ++ chunk ++ (chunks.flatten ++ rest) := by
        simp only [List.flatten_cons, List.append_assoc]
      cases ih hwithin with
      | @all F' s'' error' pushed' like' holds' hpending' hfit' hframes' =>
        rw [like.exceeds] at hpending'
        refine .all (F := F ++ F') error' ?_ (like.trans like') holds' hpending' ?_ ?_
        · rw [pushed', like.wrap, List.map_append]
          exact congrArg (· ++ _) pushed
        · intro payload hmem
          rcases List.mem_append.1 hmem with hmem | hmem
          · exact hfit payload hmem
          · rw [← like.exceeds]
            exact hfit' payload hmem
        · intro rest
          have hrest := hframes' rest
          rw [like.delimiter, List.append_assoc] at hrest
          rw [hassoc, hframes, hrest, List.append_assoc]
      | @cut F' error' pushed' hfit' hlong' =>
        refine .cut (F := F ++ F') error' ?_ ?_ ?_
        · rw [pushed', like.wrap, List.map_append]
          exact congrArg (· ++ _) pushed
        · intro payload hmem
          rcases List.mem_append.1 hmem with hmem | hmem
          · exact hfit payload hmem
          · rw [← like.exceeds]
            exact hfit' payload hmem
        · intro rest
          obtain ⟨long, later, hparts, hexceeds⟩ := hlong' rest
          rw [like.exceeds] at hexceeds
          rw [like.delimiter, List.append_assoc] at hparts
          refine ⟨long, later, ?_, hexceeds⟩
          rw [hassoc, parts, hframes, List.append_assoc, List.append_assoc, ← hparts, parts]

theorem takeWhile_concat {P : Buffer → Bool} {F : List Buffer} {last : Buffer} (h : ∃ part ∈ F ++ [last], P part = false) :
    (F ++ [last]).takeWhile P = F.takeWhile P := by
  rw [List.takeWhile_append]
  split
  · rename_i hall
    have hF : F.takeWhile P = F := (List.takeWhile_prefix P).eq_of_length hall
    obtain ⟨part, hmem, hno⟩ := h
    rcases List.mem_append.1 hmem with hmem | hmem
    · rw [← hF] at hmem
      rw [List.mem_takeWhile_imp hmem] at hno
      cases hno
    · obtain rfl := List.mem_singleton.1 hmem
      rw [hF]
      simp [hno]
  · rfl

/-- The whole input, flush included: the parts up to the first that is too long. -/
theorem runEnd_cuts {p : DelimiterParser} (h : p.Within []) (chunks : List Buffer) :
    (stream.runEnd p chunks).error =
      (if ∃ part ∈ parts p.delimiter chunks.flatten, p.exceeds part.length then some .frameTooLarge else none) ∧
    (stream.runEnd p chunks).pushed =
      if ∃ part ∈ parts p.delimiter chunks.flatten, p.exceeds part.length then
        ((frames p.delimiter chunks.flatten).1.takeWhile fun payload => !p.exceeds payload.length).map p.wrap
      else (frames p.delimiter chunks.flatten).1.map p.wrap ++ [(frames p.delimiter chunks.flatten).2] := by
  cases run_cuts h chunks with
  | @all F s' error pushed like holds hpending hfit hframes =>
    -- nothing that is kept contains a delimiter
    have hrest : frames p.delimiter s' = ([], s') := by
      have hno := holds.tracks.noEnd
      have hdel : (stream.run p chunks).state.matcher.delimiter = p.delimiter := like.delimiter
      rw [hdel] at hno
      exact frames_of_none (indexOf_eq_none_of_noEnd hno)
    have hcut := hframes []
    rw [List.nil_append, List.append_nil, List.append_nil, hrest, List.append_nil] at hcut
    have hlen : (stream.run p chunks).state.exceeds (stream.run p chunks).state.bytes.length = p.exceeds s'.length := by
      rw [holds.length_eq, like.exceeds]
    rw [Transform.runEnd_of_ok error, pushed]
    have hflush : stream.flush (stream.run p chunks).state = flush (stream.run p chunks).state := rfl
    rw [hflush, flush, hlen, parts, hcut]
    cases hlong : p.exceeds s'.length with
    | true =>
      have hex : ∃ part ∈ F ++ [s'], p.exceeds part.length := ⟨s', by simp, hlong⟩
      have hall : F.takeWhile (fun payload => !p.exceeds payload.length) = F := by
        rw [List.takeWhile_eq_self_iff]
        intro payload hmem
        rw [hfit payload hmem]
        rfl
      rw [if_pos hex, if_pos hex, hall]
      exact ⟨rfl, List.append_nil _⟩
    | false =>
      have hno : ¬ ∃ part ∈ F ++ [s'], p.exceeds part.length := by
        rintro ⟨part, hmem, hpart⟩
        rcases List.mem_append.1 hmem with hmem | hmem
        · rw [hfit part hmem] at hpart
          cases hpart
        · obtain rfl := List.mem_singleton.1 hmem
          rw [hlong] at hpart
          cases hpart
      rw [if_neg hno, if_neg hno]
      simp only [Bool.false_eq_true, if_false, ByteQueue.take_all holds.bytes_wf, holds.bytes_eq]
      exact ⟨trivial, trivial⟩
  | @cut F error pushed hfit hlong =>
    obtain ⟨long, later, hparts, hexceeds⟩ := hlong []
    rw [List.nil_append, List.append_nil] at hparts
    have hex : ∃ part ∈ parts p.delimiter chunks.flatten, p.exceeds part.length :=
      ⟨long, by rw [hparts]; simp, hexceeds⟩
    have htake : (frames p.delimiter chunks.flatten).1.takeWhile (fun payload => !p.exceeds payload.length) = F := by
      have hcut : (parts p.delimiter chunks.flatten).takeWhile (fun payload => !p.exceeds payload.length) =
          (frames p.delimiter chunks.flatten).1.takeWhile (fun payload => !p.exceeds payload.length) :=
        takeWhile_concat (by simpa [parts] using hex)
      rw [← hcut]
      have hall : ∀ payload ∈ F, (!p.exceeds payload.length) = true := fun payload hmem => by rw [hfit payload hmem]; rfl
      rw [hparts, List.takeWhile_append_of_pos hall, List.takeWhile_cons_of_neg (by simp [hexceeds]), List.append_nil]
    rw [Transform.runEnd_of_error error, if_pos hex, if_pos hex, htake]
    exact ⟨rfl, pushed⟩

theorem create_spec {d : Buffer} (hd : d ≠ []) (includeDelimiter : Bool) {maxFrameLength : Option ℤ} {limit : Option ℕ}
    (hlimit : checkMaxFrameLength maxFrameLength = .ok limit) :
    ∃ p, create (some d) includeDelimiter maxFrameLength = .ok p ∧ p.maxFrameLength = limit ∧ p.Holds [] ∧
      p.delimiter = d ∧ p.includeDelimiter = includeDelimiter := by
  obtain ⟨m, hm, hwf, hmd, hm0⟩ := DelimiterMatcher.create_of_ne hd
  refine ⟨{ matcher := m, includeDelimiter := includeDelimiter, maxFrameLength := limit }, ?_, rfl,
    ⟨ByteQueue.wf_empty, rfl, hwf, DelimiterMatcher.tracks_nil hm0⟩, hmd, rfl⟩
  simp only [create, hm, hlimit]
  rfl

theorem create_holds {d : Buffer} (hd : d ≠ []) (includeDelimiter : Bool) :
    ∃ p, create (some d) includeDelimiter none = .ok p ∧ p.maxFrameLength = none ∧ p.Holds [] ∧ p.delimiter = d ∧
      p.includeDelimiter = includeDelimiter :=
  create_spec hd includeDelimiter rfl

theorem Holds.within {p : DelimiterParser} (h : p.Holds []) : p.Within [] := by
  refine ⟨h, ?_⟩
  rw [List.length_nil, Nat.zero_sub]
  unfold exceeds
  split <;> rfl

theorem runEnd_spec {p : DelimiterParser} (hmax : p.maxFrameLength = none) (h : p.Holds []) (chunks : List Buffer) :
    (stream.runEnd p chunks).error = none ∧
      (stream.runEnd p chunks).pushed =
        (frames p.delimiter chunks.flatten).1.map p.wrap ++ [(frames p.delimiter chunks.flatten).2] := by
  obtain ⟨herror, hpushed⟩ := runEnd_cuts h.within chunks
  have hno : ¬ ∃ part ∈ parts p.delimiter chunks.flatten, p.exceeds part.length := by
    rintro ⟨part, -, hpart⟩
    rw [exceeds_of_none hmax] at hpart
    cases hpart
  rw [if_neg hno] at herror hpushed
  exact ⟨herror, hpushed⟩

/-- **Delimiter framing depends only on the byte stream.**  For every delimiter the constructor accepts, with or
without `includeDelimiter`, without a limit, and for every way of cutting an input into chunks, the buffers pushed,
flush included, are the frames between the earliest non-overlapping delimiters of the input, and its remainder. -/
theorem delimiter_framing (d : Buffer) (hd : d ≠ []) (includeDelimiter : Bool) (chunks : List Buffer) :
    ∃ p, create (some d) includeDelimiter none = .ok p ∧ (stream.runEnd p chunks).error = none ∧
      (stream.runEnd p chunks).pushed =
        (frames d chunks.flatten).1.map (fun payload => if includeDelimiter then payload ++ d else payload) ++
          [(frames d chunks.flatten).2] := by
  obtain ⟨p, hp, hmax, hholds, hpd, hpi⟩ := create_holds hd includeDelimiter
  obtain ⟨hok, hpushed⟩ := runEnd_spec hmax hholds chunks
  have hw : p.wrap = fun payload => if includeDelimiter then payload ++ d else payload := by
    funext payload
    simp only [wrap, hpd, hpi]
  rw [hpd, hw] at hpushed
  exact ⟨p, hp, hok, hpushed⟩

/-- A delimiter split over two chunks, one of its bytes shared with a false start. -/
theorem delimiter_framing_split : ∃ p, create (some [7, 7]) true none = .ok p ∧
    (stream.runEnd p [[1, 7], [2, 7], [7, 7], [], [3]]).error = none ∧
    (stream.runEnd p [[1, 7], [2, 7], [7, 7], [], [3]]).pushed = [[1, 7, 2, 7, 7], [7, 3]] := by
  have hframes : frames [7, 7] ([[1, 7], [2, 7], [7, 7], [], [3]] : List Buffer).flatten = ([[1, 7, 2]], [7, 3]) := by
    rw [frames_of_some (i := 3) (by decide) (by decide), frames_of_none (by decide)]
    rfl
  obtain ⟨p, hp, hok, hpushed⟩ := delimiter_framing [7, 7] (by decide) true [[1, 7], [2, 7], [7, 7], [], [3]]
  refine ⟨p, hp, hok, ?_⟩
  rw [hpushed, hframes]
  rfl

/-- **The frame limit is exact**, for every delimiter and limit the constructor accepts and every way of cutting an
input into chunks:

* the error is raised exactly where the payload of a complete frame, or the unterminated remainder, is over the limit;
* the frames before the first such are pushed unchanged, and where there is none, all frames and the remainder;
* after chunks that raised no error, at most `limit + d.length - 1` bytes are buffered. -/
theorem delimiter_limit (d : Buffer) (hd : d ≠ []) (includeDelimiter : Bool) (limit : ℕ)
    (hlimit : (limit : ℤ) ≤ maxSafeInteger) (chunks : List Buffer) :
    let payloads := (frames d chunks.flatten).1
    let rest := (frames d chunks.flatten).2
    let wrap := fun payload => if includeDelimiter then payload ++ d else payload
    let long := (∃ payload ∈ payloads, limit < payload.length) ∨ limit < rest.length
    ∃ p, create (some d) includeDelimiter (some limit) = .ok p ∧
      (stream.runEnd p chunks).error = (if long then some .frameTooLarge else none) ∧
      (stream.runEnd p chunks).pushed =
        (if long then (payloads.takeWhile fun payload => payload.length ≤ limit).map wrap
          else payloads.map wrap ++ [rest]) ∧
      ((stream.run p chunks).error = none → (stream.run p chunks).state.bytes.length ≤ limit + d.length - 1) := by
  intro payloads rest wrap long
  have hcheck : checkMaxFrameLength (some (limit : ℤ)) = .ok (some limit) := by
    have hint : integer (limit : ℤ) "maxFrameLength" 0 maxSafeInteger = .ok (limit : ℤ) := by
      rw [integer, if_neg (by omega)]
    simp only [checkMaxFrameLength, hint]
    rfl
  obtain ⟨p, hp, hmax, hholds, hpd, hpi⟩ := create_spec hd includeDelimiter hcheck
  have hwrap : p.wrap = wrap := by
    funext payload
    simp only [DelimiterParser.wrap, hpd, hpi, wrap]
  have hexceeds (n : ℕ) : p.exceeds n = decide (limit < n) := by
    simp only [exceeds, hmax, gt_iff_lt]
  have hfit : (fun payload : Buffer => !p.exceeds payload.length) = fun payload => decide (payload.length ≤ limit) := by
    funext payload
    rw [hexceeds, Bool.not_eq_eq_eq_not, ← decide_not]
    simp
  have hlong : (∃ part ∈ parts d chunks.flatten, p.exceeds part.length) ↔ long := by
    rw [parts]
    simp only [List.mem_append, List.mem_singleton, hexceeds, decide_eq_true_eq, or_and_right, exists_or, exists_eq_left]
    exact Iff.rfl
  obtain ⟨herror, hpushed⟩ := runEnd_cuts hholds.within chunks
  simp only [hlong, hpd, hwrap, hfit] at herror hpushed
  refine ⟨p, hp, herror, hpushed, ?_⟩
  intro hok
  cases run_cuts hholds.within chunks with
  | @all F s' error pushed like holds hpending hfit hframes =>
    have hmatched := holds.tracks.longest.1
    have hdel : (stream.run p chunks).state.matcher.delimiter = d := like.delimiter.trans hpd
    have hpos : 0 < d.length := List.length_pos_iff.2 hd
    rw [hexceeds, decide_eq_false_iff_not, DelimiterMatcher.pendingBytes] at hpending
    rw [hdel] at hmatched
    rw [holds.length_eq]
    omega
  | cut error =>
    rw [error] at hok
    cases hok

/-- A limit of two: the second frame shares a byte with the first delimiter's end, and the remainder is too long. -/
theorem delimiter_limit_remainder : ∃ p, create (some [7, 7]) true (some 2) = .ok p ∧
    (stream.runEnd p [[1, 7], [7, 7, 3, 7, 7, 4, 5, 6]]).error = some .frameTooLarge ∧
    (stream.runEnd p [[1, 7], [7, 7, 3, 7, 7, 4, 5, 6]]).pushed = [[1, 7, 7], [7, 3, 7, 7]] := by
  have hframes : frames [7, 7] ([[1, 7], [7, 7, 3, 7, 7, 4, 5, 6]] : List Buffer).flatten = ([[1], [7, 3]], [4, 5, 6]) := by
    rw [frames_of_some (i := 1) (by decide) (by decide), frames_of_some (i := 2) (by decide) (by decide),
      frames_of_none (by decide)]
    rfl
  obtain ⟨p, hp, herror, hpushed, -⟩ := delimiter_limit [7, 7] (by decide) true 2 (by decide)
    [[1, 7], [7, 7, 3, 7, 7, 4, 5, 6]]
  refine ⟨p, hp, ?_, ?_⟩
  · rw [herror, hframes]
    rfl
  · rw [hpushed, hframes]
    rfl

end DelimiterParser

end NodeSerialport.Parsers
