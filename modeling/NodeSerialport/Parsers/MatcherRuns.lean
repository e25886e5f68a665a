import NodeSerialport.Lib.Machine
import NodeSerialport.Parsers.Matcher
/-!
# Runs of the delimiter matcher

The loops of `DelimiterMatcher` with every access to the table and to the delimiter checked, and the calls of `find` that
search a stream, chunk by chunk and from each end that is returned.

* `create?`, `find?` — the constructor and `find`: `none` where an index is out of range, or a loop does not end;
* `InRange`, `InRange.find` — the bounds that every call keeps, and under which no access fails;
* `Search`, `search` — the calls of `find` over a stream;
* `pending_longest` — what is pending is the longest proper prefix of the delimiter that ends the stream.
-/

namespace NodeSerialport.Parsers

open NodeSerialport.Lib NodeSerialport.Lib.Border NodeSerialport.Lib.Frames

namespace DelimiterMatcher

/-! ### Checked accesses -/

/-- The constructor's loop; `prefix[i] = matched` needs an index of the table. -/
def fillTable? (delimiter : Buffer) : ℕ → ℕ → ℕ → List ℕ → Option (List ℕ)
  | 0, _, _, table => some table
  | left + 1, i, matched, table => do
    let byte ← delimiter[i]?
    let matched ← Lib.Border.advance? table delimiter matched byte
    if i < table.length then fillTable? delimiter left (i + 1) matched (table.set i matched) else none

theorem ne_nil_of_length {delimiter : Buffer} (h : ¬ delimiter.length = 0) : delimiter ≠ [] :=
  fun hd => h (List.length_eq_zero_iff.2 hd)

/-- The constructor. -/
def create? (delimiter : Option Buffer) : Option (Except String DelimiterMatcher) :=
  match delimiter with
  | none => some (.error "delimiter is required")
  | some delimiter =>
    if h : delimiter.length = 0 then some (.error "delimiter must not be empty")
    else
      (fillTable? delimiter (delimiter.length - 1) 1 0 (List.replicate delimiter.length 0)).map fun table =>
        .ok { prefixTable := table
              delimiter := delimiter
              nonempty := ne_nil_of_length h }

/-- `#advance`. -/
def advance? (m : DelimiterMatcher) (byte : UInt8) : Option (Bool × DelimiterMatcher) := do
  let matched ← Lib.Border.advance? m.prefixTable m.delimiter m.matched byte
  if matched ≠ m.delimiter.length then return (false, { m with matched := matched })
  else return (true, { m with matched := 0 })

/-- The first loop of `find`. -/
def resume? (m : DelimiterMatcher) : Buffer → ℕ → Option (Bool × ℕ × DelimiterMatcher)
  | [], offset => some (false, offset, m)
  | byte :: rest, offset =>
    if m.matched = 0 then some (false, offset, m)
    else do
      let (hit, m') ← m.advance? byte
      if hit then return (true, offset + 1, m') else resume? m' rest (offset + 1)

/-- The last loop of `find`. -/
def feed? (m : DelimiterMatcher) : Buffer → Option DelimiterMatcher
  | [] => some m
  | byte :: rest => do
    let (_, m') ← m.advance? byte
    feed? m' rest

/-- `find`. -/
def find? (m : DelimiterMatcher) (chunk : Buffer) (offset : ℕ) : Option (Option ℕ × DelimiterMatcher) := do
  let (hit, offset, m) ← m.resume? (chunk.drop offset) offset
  if hit then return (some offset, m)
  else if offset = chunk.length then return (none, m)
  else
    match (Lib.Frames.indexOf m.delimiter (chunk.drop offset)).map (· + offset) with
    | some found => return (some (found + m.delimiter.length), m)
    | none =>
      let m ← m.feed? (chunk.drop (max offset (chunk.length + 1 - m.delimiter.length)))
      return (none, m)

/-! ### The constructor -/

theorem fillTable_length (d : Buffer) : ∀ (left i matched : ℕ) (table : List ℕ),
    (fillTable d left i matched table).length = table.length := by
  intro left
  induction left with
  | zero =>
    intro i matched table
    rfl
  | succ left ih =>
    intro i matched table
    simp only [fillTable, ih, List.length_set]

theorem fillTable?_eq (d : Buffer) : ∀ (left i matched : ℕ) (table : List ℕ), 1 ≤ i → i + left = d.length →
    table.length = d.length → IsTable d i (entry table) → IsLongest d (d.take i) (i - 1) matched →
    fillTable? d left i matched table = some (fillTable d left i matched table) := by
  intro left
  induction left with
  | zero =>
    intro i matched table _ _ _ _ _
    rfl
  | succ left ih =>
    intro i matched table h1 hi hlen htab hm
    have hid : i < d.length := by omega
    have hmi : matched ≤ i - 1 := hm.1
    have hbyte : d[i]? = some (d.getD i 0) := by
      rw [List.getD_eq_getElem _ _ hid, List.getElem?_eq_getElem hid]
    have hadvance : Lib.Border.advance? table d matched (d.getD i 0) =
        some (Lib.Border.advance (entry table) d matched (d.getD i 0)) :=
      advance?_eq htab (by omega) _ (by omega) (by omega)
    obtain ⟨htab', hlong⟩ := fillTable_step h1 hid hlen htab hm
    simp only [fillTable?, fillTable, hbyte, hadvance, Option.bind_eq_bind, Option.bind_some, if_pos (hlen ▸ hid)]
    exact ih (i + 1) _ _ (by omega) (by omega) (by rw [List.length_set, hlen]) htab' (by simpa using hlong)

theorem create?_eq (delimiter : Option Buffer) : create? delimiter = some (create delimiter) := by
  cases delimiter with
  | none => rfl
  | some d =>
    by_cases hd : d.length = 0
    · simp only [create?, create, dif_pos hd]
    · have hfill := fillTable?_eq d (d.length - 1) 1 0 (List.replicate d.length 0) le_rfl (by omega) (by simp)
        (isTable_replicate hd) ⟨le_rfl, by simp, fun k hk _ => hk⟩
      simp only [create?, create, dif_neg hd, hfill, Option.map_some]

/-! ### The bounds -/

/-- The table has an entry for every index of the delimiter, and what is matched is one of them. -/
structure InRange (m : DelimiterMatcher) : Prop where
  wf : m.WF
  length : m.prefixTable.length = m.delimiter.length
  matched : m.matched < m.delimiter.length

theorem create_inRange {d : Buffer} {m : DelimiterMatcher} (h : create (some d) = .ok m) : m.InRange := by
  obtain ⟨hwf, hdelimiter, hmatched⟩ := create_wf h
  refine ⟨hwf, ?_, hmatched ▸ m.length_pos⟩
  by_cases hd : d.length = 0
  · simp [create, hd] at h
  · simp only [create, dif_neg hd, Except.ok.injEq] at h
    subst h
    simp only [fillTable_length, List.length_replicate]

namespace InRange

variable {m : DelimiterMatcher}

/-- **One byte.**  The fallback loop ends, no index is out of range, and the bounds are kept. -/
theorem advance (h : m.InRange) (byte : UInt8) :
    m.advance? byte = some (m.advance byte) ∧ (m.advance byte).2.InRange := by
  have hadvance : Lib.Border.advance? m.prefixTable m.delimiter m.matched byte =
      some (Lib.Border.advance (entry m.prefixTable) m.delimiter m.matched byte) :=
    advance?_eq h.wf (by rw [h.length]) byte h.matched.le h.matched
  have hle : Lib.Border.advance (entry m.prefixTable) m.delimiter m.matched byte ≤ m.delimiter.length := by
    have hfallback := fallback_le h.wf byte h.matched.le
    have hmatched := h.matched
    simp only [Lib.Border.advance]
    split <;> omega
  simp only [advance?, DelimiterMatcher.advance, hadvance, Option.bind_eq_bind, Option.bind_some]
  split
  · rename_i hne
    exact ⟨rfl, h.wf, h.length, Nat.lt_of_le_of_ne hle hne⟩
  · exact ⟨rfl, h.wf, h.length, m.length_pos⟩

theorem resume (t : Buffer) : ∀ {m : DelimiterMatcher} (offset : ℕ), m.InRange →
    m.resume? t offset = some (m.resume t offset) ∧ (m.resume t offset).2.2.InRange := by
  induction t with
  | nil => exact fun offset h => ⟨rfl, h⟩
  | cons byte rest ih =>
    intro m offset h
    obtain ⟨hadvance, hnext⟩ := h.advance byte
    simp only [resume?, DelimiterMatcher.resume, hadvance, Option.bind_eq_bind, Option.bind_some]
    split
    · exact ⟨rfl, h⟩
    split
    · exact ⟨rfl, hnext⟩
    · exact ih (offset + 1) hnext

theorem feed (t : Buffer) : ∀ {m : DelimiterMatcher}, m.InRange → m.feed? t = some (m.feed t) ∧ (m.feed t).InRange := by
  induction t with
  | nil => exact fun h => ⟨rfl, h⟩
  | cons byte rest ih =>
    intro m h
    obtain ⟨hadvance, hnext⟩ := h.advance byte
    simp only [feed?, hadvance, Option.bind_eq_bind, Option.bind_some]
    exact ih hnext

/-- **`find`.**  Its loops end, no index is out of range, and the bounds are kept. -/
theorem find (h : m.InRange) (chunk : Buffer) (offset : ℕ) :
    m.find? chunk offset = some (m.find chunk offset) ∧ (m.find chunk offset).2.InRange := by
  obtain ⟨hresume, hstopped⟩ := InRange.resume (chunk.drop offset) offset h
  rcases hr : m.resume (chunk.drop offset) offset with ⟨hit, stop, m₁⟩
  rw [hr] at hresume hstopped
  simp only [find?, DelimiterMatcher.find, hresume, hr, Option.bind_eq_bind, Option.bind_some]
  cases hit with
  | true => exact ⟨rfl, hstopped⟩
  | false =>
    simp only [Bool.false_eq_true, if_false]
    split
    · exact ⟨rfl, hstopped⟩
    · cases Option.map (· + stop) (indexOf m₁.delimiter (chunk.drop stop)) with
      | some found => exact ⟨rfl, hstopped⟩
      | none =>
        obtain ⟨hfeed, hfed⟩ := InRange.feed (chunk.drop (max stop (chunk.length + 1 - m₁.delimiter.length))) hstopped
        simp only [hfeed]
        exact ⟨rfl, hfed⟩

end InRange

end DelimiterMatcher

/-! ### The calls over a stream -/

/-- A search of a stream: the present chunk, and the offset of the next call of `find`. -/
structure Search where
  matcher : DelimiterMatcher
  chunk : Buffer := []
  offset : ℕ := 0
  /-- The chunk has not been searched to its end. -/
  searching : Bool := false

inductive Call where
  /-- A chunk arrives. -/
  | chunk (chunk : Buffer)
  | find
  deriving DecidableEq, Repr

/-- A chunk is searched from every end that is returned, until `-1`. -/
def Search.step (s : Search) : Call → Option (Search × List (Option ℕ))
  | .chunk chunk => if s.searching then none else some ({ s with chunk := chunk, offset := 0, searching := true }, [])
  | .find =>
    if s.searching then
      match s.matcher.find? s.chunk s.offset with
      | some (some stop, matcher) => some ({ s with matcher := matcher, offset := stop }, [some stop])
      | some (none, matcher) => some ({ s with matcher := matcher, searching := false }, [none])
      | none => none
    else none

def search : Machine Search Call (Option ℕ) := ⟨Search.step⟩

/-- The stream since the last reported match. -/
def since (stream : Buffer) (s : Search) (_ : Call) : List (Option ℕ) → Buffer
  | [] => stream
  | none :: _ => stream ++ s.chunk.drop s.offset
  | some _ :: _ => []

/-- What holds between the calls. -/
structure Searches (s : Search) (stream : Buffer) : Prop where
  inRange : s.matcher.InRange
  tracks : s.matcher.Tracks stream
  offset : s.offset ≤ s.chunk.length

/-- **One call.** -/
theorem searches_find {s : Search} {stream : Buffer} (h : Searches s stream) :
    ∃ result matcher, s.matcher.find? s.chunk s.offset = some (result, matcher) ∧ matcher.InRange ∧
      matcher.delimiter = s.matcher.delimiter ∧ matcher.Tracks (since stream s .find [result]) ∧
      ∀ stop, result = some stop → matcher.matched = 0 ∧ stop ≤ s.chunk.length := by
  obtain ⟨hfind, hrange⟩ := h.inRange.find s.chunk s.offset
  obtain ⟨e, -, heq⟩ | ⟨-, matcher, heq, hsame, htracks⟩ :=
    DelimiterMatcher.find_spec h.inRange.wf h.tracks h.offset
  · rw [heq] at hfind hrange
    refine ⟨_, _, hfind, hrange, rfl, DelimiterMatcher.tracks_nil rfl, fun stop hstop => ⟨rfl, ?_⟩⟩
    cases hstop
    exact (DelimiterMatcher.find_bounds heq).2
  · rw [heq] at hfind hrange
    exact ⟨_, _, hfind, hrange, hsame.1, htracks, fun stop hstop => by cases hstop⟩

theorem searches_step {s s' : Search} {stream : Buffer} (h : Searches s stream) {call : Call} {out : List (Option ℕ)}
    (hstep : s.step call = some (s', out)) :
    Searches s' (since stream s call out) ∧ s'.matcher.delimiter = s.matcher.delimiter := by
  cases call with
  | chunk chunk =>
    obtain ⟨-, heq⟩ := Option.ite_none_left_eq_some.1 (show (if s.searching then none else some _) = _ from hstep)
    cases heq
    exact ⟨⟨h.inRange, h.tracks, Nat.zero_le _⟩, rfl⟩
  | find =>
    obtain ⟨-, hstep⟩ := Option.ite_none_right_eq_some.1 (show (if s.searching then _ else none) = _ from hstep)
    obtain ⟨result, matcher, hfind, hrange, hdelimiter, htracks, hstop⟩ := searches_find h
    rw [hfind] at hstep
    cases result with
    | some stop =>
      cases hstep
      exact ⟨⟨hrange, htracks, (hstop stop rfl).2⟩, hdelimiter⟩
    | none =>
      cases hstep
      exact ⟨⟨hrange, htracks, h.offset⟩, hdelimiter⟩

/-- **What is pending is the longest proper prefix of the delimiter that ends the stream.**  The constructor's table holds
the longest proper borders.  At every call of `find` over a stream, the call ends with every index in range; after a
match nothing is pending, and after `-1` the longest proper prefix that ends the stream since the last match. -/
theorem pending_longest {d : Buffer} (hd : d ≠ []) : ∃ m,
    DelimiterMatcher.create? (some d) = some (.ok m) ∧ m.delimiter = d ∧
    (∀ i < d.length, ∃ border, m.prefixTable[i]? = some border ∧ IsLongest d (d.take (i + 1)) i border) ∧
    ∀ calls s stream results,
      (search.monitor since).run ({ matcher := m }, []) calls = some ((s, stream), results) → s.searching →
      ∃ result matcher, s.matcher.find? s.chunk s.offset = some (result, matcher) ∧
        match result with
        | some _ => matcher.pendingBytes = 0
        | none => IsLongest d (stream ++ s.chunk.drop s.offset) (d.length - 1) matcher.pendingBytes := by
  obtain ⟨m, hcreate, hwf, hdelimiter, hmatched⟩ := DelimiterMatcher.create_of_ne hd
  have hrange := DelimiterMatcher.create_inRange hcreate
  refine ⟨m, by rw [DelimiterMatcher.create?_eq, hcreate], hdelimiter, fun i hi => ?_,
    fun calls s stream results hrun hsearching => ?_⟩
  · have hlt : i < m.prefixTable.length := by rw [hrange.length, hdelimiter]; exact hi
    refine ⟨_, List.getElem?_eq_getElem hlt, ?_⟩
    have hentry := hwf i (by rw [hdelimiter]; exact hi)
    rw [DelimiterMatcher.entry, List.getD_eq_getElem _ _ hlt, hdelimiter] at hentry
    exact hentry
  · obtain ⟨hsearches, hsame⟩ := Machine.run_invariant
      (fun x : Search × Buffer => Searches x.1 x.2 ∧ x.1.matcher.delimiter = d)
      (fun x call x' out hx hstep => by
        obtain ⟨hstep, hsince⟩ := Machine.monitor_step.1 hstep
        obtain ⟨hsearches, hsame⟩ := searches_step hx.1 hstep
        rw [hsince]
        exact ⟨hsearches, hsame.trans hx.2⟩)
      ⟨⟨hrange, DelimiterMatcher.tracks_nil hmatched, le_rfl⟩, hdelimiter⟩ hrun
    obtain ⟨result, matcher, hfind, -, hdel, htracks, hstop⟩ := searches_find hsearches
    refine ⟨result, matcher, hfind, ?_⟩
    cases result with
    | some stop => exact (hstop stop rfl).1
    | none =>
      have hlongest := htracks.longest
      rw [hdel, show s.matcher.delimiter = d from hsame] at hlongest
      exact hlongest

/-- The delimiter `[1, 1, 2]`, with its table. -/
def repeated : DelimiterMatcher := { prefixTable := [0, 1, 0], delimiter := [1, 1, 2], nonempty := List.cons_ne_nil 1 _ }

/-- One byte of it is pending, and another chunk has arrived. -/
def halfway : Search := { matcher := { repeated with matched := 1 }, chunk := [1, 1], searching := true }

/-- Two chunks end inside a delimiter that repeats its first byte: two bytes are pending. -/
theorem pending_longest_repeated :
    (search.monitor since).run ({ matcher := repeated }, []) [.chunk [1], .find, .chunk [1, 1]] =
      some ((halfway, [1]), [none]) ∧
    halfway.matcher.find? [1, 1] 0 = some (none, { repeated with matched := 2 }) ∧
      IsLongest repeated.delimiter [1, 1, 1] 2 2 := by
  obtain ⟨m, hcreate, -, -, hcalls⟩ := pending_longest (List.cons_ne_nil (1 : UInt8) [1, 2])
  have hrepeated : DelimiterMatcher.create? (some [1, 1, 2]) = some (.ok repeated) := rfl
  obtain rfl : repeated = m := Except.ok.inj (Option.some.inj (hrepeated.symm.trans hcreate))
  have hrun : (search.monitor since).run ({ matcher := repeated }, []) [.chunk [1], .find, .chunk [1, 1]] =
      some ((halfway, [1]), [none]) := rfl
  have hfind : halfway.matcher.find? [1, 1] 0 = some (none, { repeated with matched := 2 }) := rfl
  obtain ⟨result, matcher, hfound, hpending⟩ := hcalls _ _ _ _ hrun rfl
  cases hfind.symm.trans hfound
  exact ⟨hrun, hfind, hpending⟩

end NodeSerialport.Parsers
