import Mathlib.Data.List.GetD
import NodeSerialport.Lib.Frames
import NodeSerialport.Parsers.ByteQueue

/-!
# The delimiter matcher

`DelimiterMatcher` searches a stream that arrives in chunks: an automaton over a prefix table while a partial
delimiter is pending from earlier bytes, `Buffer.indexOf` once nothing is pending, and the automaton again over the
last bytes of a chunk, where the next delimiter may begin.

* `Tracks m s` — `s` is the stream since the last reported delimiter: it contains no delimiter, and `m.matched` is
  the length of the longest proper prefix of the delimiter that ends it;
* `create_wf`: the constructor's table is the prefix function of the delimiter;
* `find_spec`: a call of `find` reports the first end of a delimiter, or keeps `Tracks` over the whole chunk.
-/

namespace NodeSerialport.Parsers

open NodeSerialport.Lib.Border NodeSerialport.Lib.Frames

/-- The automaton: its prefix table, the delimiter, and how much of it the stream ends in. -/
structure DelimiterMatcher where
  prefixTable : List ℕ
  delimiter : Buffer
  /-- The constructor rejects an empty delimiter. -/
  nonempty : delimiter ≠ []
  matched : ℕ := 0
  deriving DecidableEq

namespace DelimiterMatcher

def pendingBytes (m : DelimiterMatcher) : ℕ := m.matched

/-- The table as a function of the index. -/
def entry (table : List ℕ) (i : ℕ) : ℕ := table.getD i 0

/-- The constructor's loop, with `left` indices to go: extend the border of the bytes before `i` by the byte at
`i`, and enter it. -/
def fillTable (delimiter : Buffer) : ℕ → ℕ → ℕ → List ℕ → List ℕ
  | 0, _, _, table => table
  | left + 1, i, matched, table =>
    let matched := Lib.Border.advance (entry table) delimiter matched (delimiter.getD i 0)
    fillTable delimiter left (i + 1) matched (table.set i matched)

/-- The constructor. -/
def create (delimiter : Option Buffer) : Except String DelimiterMatcher :=
  match delimiter with
  | none => .error "delimiter is required"
  | some delimiter =>
    if h : delimiter.length = 0 then .error "delimiter must not be empty"
    else
      .ok { prefixTable := fillTable delimiter (delimiter.length - 1) 1 0 (List.replicate delimiter.length 0)
            delimiter := delimiter
            nonempty := fun hd => h (List.length_eq_zero_iff.2 hd) }

/-- `#advance`: consume one byte, and say whether it completes a delimiter. -/
def advance (m : DelimiterMatcher) (byte : UInt8) : Bool × DelimiterMatcher :=
  let matched := Lib.Border.advance (entry m.prefixTable) m.delimiter m.matched byte
  if matched ≠ m.delimiter.length then (false, { m with matched := matched })
  else (true, { m with matched := 0 })

/-- The first loop of `find`, over the bytes from `offset` on: the automaton runs while something is pending.  It
says whether it completed a delimiter, and where it stopped. -/
def resume (m : DelimiterMatcher) : Buffer → ℕ → Bool × ℕ × DelimiterMatcher
  | [], offset => (false, offset, m)
  | byte :: rest, offset =>
    if m.matched = 0 then (false, offset, m)
    else
      let (hit, m') := m.advance byte
      if hit then (true, offset + 1, m') else resume m' rest (offset + 1)

/-- The last loop of `find`: run the automaton over bytes that cannot complete a delimiter. -/
def feed (m : DelimiterMatcher) (rest : Buffer) : DelimiterMatcher :=
  rest.foldl (fun m byte => (m.advance byte).2) m

/-- The end of the next delimiter, retaining only a partial prefix.  `none` is the source's `-1`. -/
def find (m : DelimiterMatcher) (chunk : Buffer) (offset : ℕ) : Option ℕ × DelimiterMatcher :=
  match m.resume (chunk.drop offset) offset with
  | (true, offset, m) => (some offset, m)
  | (false, offset, m) =>
    if offset = chunk.length then (none, m)
    else
      match (Lib.Frames.indexOf m.delimiter (chunk.drop offset)).map (· + offset) with
      | some found => (some (found + m.delimiter.length), m)
      | none =>
        -- `indexOf` handled complete matches; only the suffix can span chunks
        (none, m.feed (chunk.drop (max offset (chunk.length + 1 - m.delimiter.length))))

theorem resume_bounds : ∀ (t : Buffer) (m : DelimiterMatcher) (offset stop : ℕ) (hit : Bool) (m' : DelimiterMatcher),
    m.resume t offset = (hit, stop, m') →
      offset ≤ stop ∧ stop ≤ offset + t.length ∧ m'.delimiter = m.delimiter ∧ (hit = true → offset < stop) := by
  intro t
  induction t with
  | nil =>
    intro m offset stop hit m' h
    simp only [resume, Prod.mk.injEq] at h
    obtain ⟨rfl, rfl, rfl⟩ := h
    simp
  | cons a t ih =>
    intro m offset stop hit m' h
    have hdel : (m.advance a).2.delimiter = m.delimiter := by
      simp only [advance]
      split <;> rfl
    by_cases h0 : m.matched = 0
    · simp only [resume, h0, if_true, Prod.mk.injEq] at h
      obtain ⟨rfl, rfl, rfl⟩ := h
      simp
    · simp only [resume, h0, if_false] at h
      cases hh : (m.advance a).1 with
      | true =>
        simp only [hh, if_true, Prod.mk.injEq] at h
        obtain ⟨rfl, rfl, rfl⟩ := h
        simp [hdel]
      | false =>
        simp only [hh, Bool.false_eq_true, if_false] at h
        obtain ⟨h1, h2, h3, -⟩ := ih _ _ _ _ _ h
        rw [List.length_cons]
        exact ⟨by omega, by omega, h3.trans hdel, fun _ => by omega⟩

/-- A reported end lies strictly behind the offset and inside the chunk. -/
theorem find_bounds {m m' : DelimiterMatcher} {chunk : Buffer} {offset stop : ℕ}
    (h : m.find chunk offset = (some stop, m')) : offset < stop ∧ stop ≤ chunk.length := by
  rcases hr : m.resume (chunk.drop offset) offset with ⟨hit, o, m₁⟩
  obtain ⟨h1, h2, h3, h4⟩ := resume_bounds _ _ _ _ _ _ hr
  rw [List.length_drop] at h2
  simp only [find, hr] at h
  cases hit with
  | true =>
    obtain ⟨rfl, -⟩ : o = stop ∧ _ := by simpa using h
    have := h4 rfl
    exact ⟨this, by omega⟩
  | false =>
    by_cases ho : o = chunk.length
    · simp [ho] at h
    · simp only [ho, if_false] at h
      cases hi : Lib.Frames.indexOf m₁.delimiter (chunk.drop o) with
      | none => simp [hi] at h
      | some i =>
        obtain ⟨rfl, -⟩ : i + o + m₁.delimiter.length = stop ∧ _ := by simpa [hi] using h
        have := indexOf_add_length_le hi
        have := List.length_pos_iff.2 m₁.nonempty
        rw [List.length_drop] at *
        omega

/-! ### The table -/

/-- The table of `m` is the prefix function of its delimiter. -/
def WF (m : DelimiterMatcher) : Prop := IsTable m.delimiter m.delimiter.length (entry m.prefixTable)

theorem entry_set_self {table : List ℕ} {i k : ℕ} (hi : i < table.length) : entry (table.set i k) i = k := by
  simp [entry, List.getD_eq_getElem?_getD, hi]

theorem entry_set_ne {table : List ℕ} {i j k : ℕ} (hij : i ≠ j) : entry (table.set i k) j = entry table j := by
  simp [entry, List.getD_eq_getElem?_getD, hij]

/-- One turn of the constructor's loop: the entries below `i` are the prefix function, and `matched` is the last of
them. -/
theorem fillTable_step {d : Buffer} {i matched : ℕ} {table : List ℕ} (h1 : 1 ≤ i) (hi : i < d.length)
    (hlen : table.length = d.length) (htab : IsTable d i (entry table)) (hm : IsLongest d (d.take i) (i - 1) matched) :
    IsTable d (i + 1) (entry (table.set i (Lib.Border.advance (entry table) d matched (d.getD i 0)))) ∧
      IsLongest d (d.take (i + 1)) i (Lib.Border.advance (entry table) d matched (d.getD i 0)) := by
  have hlong : IsLongest d (d.take (i + 1)) i (Lib.Border.advance (entry table) d matched (d.getD i 0)) := by
    have h := advance_isLongest (a := d.getD i 0)
      (fun j hj => htab j (by omega) : IsTable d (i - 1) (entry table)) hm (by omega)
    rw [Nat.sub_add_cancel h1] at h
    rw [List.take_succ_eq_append_getElem hi]
    rwa [List.getD_eq_getElem _ _ hi] at h ⊢
  refine ⟨fun j hj => ?_, hlong⟩
  by_cases hji : j = i
  · subst hji
    rw [entry_set_self (by omega)]
    exact hlong
  · rw [entry_set_ne (fun h => hji h.symm)]
    exact htab j (by omega)

theorem fillTable_isTable (d : Buffer) : ∀ (left i matched : ℕ) (table : List ℕ), 1 ≤ i → i + left = d.length →
    table.length = d.length → IsTable d i (entry table) → IsLongest d (d.take i) (i - 1) matched →
    IsTable d d.length (entry (fillTable d left i matched table)) := by
  intro left
  induction left with
  | zero =>
    intro i matched table _ hi _ htab _
    rw [← hi]
    simpa [fillTable] using htab
  | succ left ih =>
    intro i matched table h1 hi hlen htab hm
    obtain ⟨htab', hlong⟩ := fillTable_step h1 (by omega) hlen htab hm
    simp only [fillTable]
    exact ih (i + 1) _ _ (by omega) (by omega) (by rw [List.length_set, hlen]) htab' (by simpa using hlong)

theorem isTable_replicate {d : Buffer} (hd : d.length ≠ 0) : IsTable d 1 (entry (List.replicate d.length 0)) := by
  intro i hi
  have hi0 : i = 0 := by omega
  subst hi0
  refine ⟨by simp [entry, Nat.pos_of_ne_zero hd], ?_, fun k hk _ => by omega⟩
  simp [entry, Nat.pos_of_ne_zero hd]

/-- **The constructor's table is the prefix function of the delimiter.** -/
theorem create_wf {d : Buffer} {m : DelimiterMatcher} (h : create (some d) = .ok m) :
    m.WF ∧ m.delimiter = d ∧ m.matched = 0 := by
  by_cases hd : d.length = 0
  · simp [create, hd] at h
  · simp only [create, dif_neg hd, Except.ok.injEq] at h
    subst h
    refine ⟨?_, rfl, rfl⟩
    exact fillTable_isTable d _ _ _ _ le_rfl (by omega) (by simp) (isTable_replicate hd)
      ⟨le_rfl, by simp, fun k hk _ => hk⟩

theorem create_of_ne {d : Buffer} (hd : d ≠ []) :
    ∃ m, create (some d) = .ok m ∧ m.WF ∧ m.delimiter = d ∧ m.matched = 0 := by
  obtain ⟨m, hm⟩ : ∃ m, create (some d) = .ok m := by
    have hlength : ¬ d.length = 0 := fun hzero => hd (List.length_eq_zero_iff.1 hzero)
    simp only [create, dif_neg hlength]
    exact ⟨_, rfl⟩
  exact ⟨m, hm, create_wf hm⟩

/-! ### One byte -/

/-- `s` is the stream since the last reported delimiter, and `m` is in the state it leads to. -/
structure Tracks (m : DelimiterMatcher) (s : Buffer) : Prop where
  noEnd : NoEnd m.delimiter [] s
  longest : IsLongest m.delimiter s (m.delimiter.length - 1) m.matched

/-- `m'` is `m` at a later point of the stream. -/
def Same (m m' : DelimiterMatcher) : Prop := m'.delimiter = m.delimiter ∧ m'.prefixTable = m.prefixTable

/-- `m` right after a reported delimiter. -/
def reset (m : DelimiterMatcher) : DelimiterMatcher := { m with matched := 0 }

theorem Same.reset_eq {m m' : DelimiterMatcher} (h : Same m m') : m'.reset = m.reset := by
  obtain ⟨h1, h2⟩ := h
  cases m
  cases m'
  simp_all [reset]

theorem reset_eq_self {m : DelimiterMatcher} (h0 : m.matched = 0) : m.reset = m := by
  cases m
  simp_all [reset]

theorem Same.refl (m : DelimiterMatcher) : Same m m := ⟨rfl, rfl⟩

theorem Same.trans {a b c : DelimiterMatcher} (h : Same a b) (h' : Same b c) : Same a c :=
  ⟨h'.1.trans h.1, h'.2.trans h.2⟩

theorem Same.wf {m m' : DelimiterMatcher} (h : Same m m') (hm : m.WF) : m'.WF := by
  obtain ⟨h1, h2⟩ := h
  unfold WF
  rw [h1, h2]
  exact hm

theorem length_pos (m : DelimiterMatcher) : 0 < m.delimiter.length := List.length_pos_iff.2 m.nonempty

theorem not_suffix_nil (m : DelimiterMatcher) : ¬ m.delimiter <:+ [] := by
  rw [List.suffix_nil]
  exact m.nonempty

theorem tracks_nil {m : DelimiterMatcher} (h0 : m.matched = 0) : m.Tracks [] := by
  refine ⟨?_, ?_⟩
  · intro e _
    rw [List.take_nil, List.append_nil]
    exact not_suffix_nil m
  · rw [h0]
    exact isLongest_nil (by omega)

theorem Tracks.not_suffix {m : DelimiterMatcher} {s : Buffer} (h : m.Tracks s) : ¬ m.delimiter <:+ s := by
  have := h.noEnd s.length le_rfl
  rwa [List.nil_append, List.take_length] at this

theorem noEnd_snoc {d s : Buffer} {a : UInt8} (h : NoEnd d [] s) (ha : ¬ d <:+ s ++ [a]) :
    NoEnd d [] (s ++ [a]) := by
  refine h.append ?_
  intro e he
  rw [List.nil_append]
  cases e with
  | zero => simpa using h s.length le_rfl
  | succ e => simpa using ha

/-- `#advance` reports the byte that completes a delimiter, and tracks the stream otherwise. -/
theorem advance_spec {m : DelimiterMatcher} {s : Buffer} (hm : m.WF) (h : m.Tracks s) (a : UInt8) :
    (m.delimiter <:+ s ++ [a] ∧ m.advance a = (true, m.reset)) ∨
    (¬ m.delimiter <:+ s ++ [a] ∧ ∃ m', m.advance a = (false, m') ∧ Same m m' ∧ m'.Tracks (s ++ [a])) := by
  have hpos : 0 < m.delimiter.length := m.length_pos
  have hlong := advance_isLongest (a := a)
    (fun j hj => hm j (by omega) : IsTable m.delimiter (m.delimiter.length - 1) (entry m.prefixTable))
    h.longest (by omega)
  rw [Nat.sub_add_cancel hpos] at hlong
  set r := Lib.Border.advance (entry m.prefixTable) m.delimiter m.matched a with hr
  by_cases hfull : r = m.delimiter.length
  · left
    have hsuf := hlong.2.1
    rw [hfull, List.take_length] at hsuf
    refine ⟨hsuf, ?_⟩
    simp only [advance, ← hr, hfull, ne_eq, not_true_eq_false, if_false]
    rfl
  · right
    have hlt : r ≤ m.delimiter.length - 1 := by
      have := hlong.1
      omega
    have hno : ¬ m.delimiter <:+ s ++ [a] := by
      intro hsuf
      have := hlong.2.2 _ le_rfl (by rw [List.take_length]; exact hsuf)
      omega
    refine ⟨hno, { m with matched := r }, ?_, ⟨rfl, rfl⟩, noEnd_snoc h.noEnd hno, hlong.lower hlt (Nat.sub_le _ _)⟩
    simp only [advance, ← hr]
    rw [if_pos hfull]

/-! ### A run of bytes -/

theorem firstEnd_cons {d s t : Buffer} {a : UInt8} {e : ℕ} (h0 : ¬ d <:+ s) (h : FirstEnd d (s ++ [a]) t e) :
    FirstEnd d s (a :: t) (e + 1) := by
  obtain ⟨h1, h2, h3⟩ := h
  refine ⟨by simpa using h1, by simpa using h2, ?_⟩
  intro e' he'
  cases e' with
  | zero => simpa using h0
  | succ e' => simpa using h3 e' (by omega)

theorem noEnd_cons {d s t : Buffer} {a : UInt8} (h0 : ¬ d <:+ s) (h : NoEnd d (s ++ [a]) t) :
    NoEnd d s (a :: t) := by
  intro e he
  cases e with
  | zero => simpa using h0
  | succ e => simpa using h e (by simpa using he)

/-- The first loop of `find` stops at the first end of a delimiter, at the end of the chunk, or where nothing is
pending any more. -/
theorem resume_spec : ∀ (t : Buffer) {m : DelimiterMatcher} {s : Buffer} (offset : ℕ), m.WF → m.Tracks s →
    (∃ e, FirstEnd m.delimiter s t e ∧ m.resume t offset = (true, offset + e, m.reset)) ∨
    (∃ e m', e ≤ t.length ∧ m.resume t offset = (false, offset + e, m') ∧ Same m m' ∧
      m'.Tracks (s ++ t.take e) ∧ NoEnd m.delimiter s (t.take e) ∧ (e = t.length ∨ m'.matched = 0)) := by
  intro t
  induction t with
  | nil =>
    intro m s offset _ h
    right
    refine ⟨0, m, le_rfl, rfl, Same.refl m, by simpa using h, ?_, Or.inl rfl⟩
    intro e he
    simpa using h.not_suffix
  | cons a t ih =>
    intro m s offset hm h
    by_cases h0 : m.matched = 0
    · right
      refine ⟨0, m, Nat.zero_le _, by simp [resume, h0], Same.refl m, by simpa using h, ?_, Or.inr h0⟩
      intro e he
      simpa using h.not_suffix
    · obtain ⟨hend, hadv⟩ | ⟨hno, m₁, hadv, hsame, htr⟩ := advance_spec hm h a
      · left
        refine ⟨1, ⟨by simp, by simpa using hend, ?_⟩, by simp [resume, h0, hadv]⟩
        intro e' he'
        have : e' = 0 := by omega
        subst this
        simpa using h.not_suffix
      · have hstep : m.resume (a :: t) offset = m₁.resume t (offset + 1) := by simp [resume, h0, hadv]
        rw [hstep]
        obtain ⟨e, he, hres⟩ | ⟨e, m', he, hres, hs', htr', hno', hstop⟩ := ih (offset + 1) (hsame.wf hm) htr
        · left
          rw [hsame.1] at he
          refine ⟨e + 1, firstEnd_cons h.not_suffix he, ?_⟩
          rw [hres, hsame.reset_eq, Nat.add_assoc, Nat.add_comm 1 e]
        · right
          refine ⟨e + 1, m', by simpa using he, ?_, hsame.trans hs', by simpa using htr', ?_, ?_⟩
          · rw [hres, Nat.add_assoc, Nat.add_comm 1 e]
          · rw [List.take_succ_cons]
            rw [hsame.1] at hno'
            exact noEnd_cons h.not_suffix hno'
          · simpa using hstop

theorem feed_spec : ∀ (t : Buffer) {m : DelimiterMatcher} {s : Buffer}, m.WF → m.Tracks s →
    NoEnd m.delimiter s t → Same m (m.feed t) ∧ (m.feed t).Tracks (s ++ t) := by
  intro t
  induction t with
  | nil =>
    intro m s _ h _
    exact ⟨Same.refl m, by simpa [feed] using h⟩
  | cons a t ih =>
    intro m s hm h hno
    obtain ⟨hend, -⟩ | ⟨-, m₁, hadv, hsame, htr⟩ := advance_spec hm h a
    · exact absurd hend (by simpa using hno 1 (by simp))
    · have hrec := ih (hsame.wf hm) htr (by
        intro e he
        rw [hsame.1]
        simpa using hno (e + 1) (by simpa using he))
      have hstep : m.feed (a :: t) = m₁.feed t := by simp [feed, hadv]
      rw [hstep]
      exact ⟨hsame.trans hrec.1, by simpa using hrec.2⟩

/-! ### Nothing pending -/

theorem Tracks.suffix_forget {m : DelimiterMatcher} {s t : Buffer} (h : m.Tracks s) (h0 : m.matched = 0) :
    m.delimiter <:+ s ++ t ↔ m.delimiter <:+ t := by
  have hpos : 0 < m.delimiter.length := m.length_pos
  cases t with
  | nil =>
    rw [List.append_nil]
    exact iff_of_false h.not_suffix (not_suffix_nil m)
  | cons a t =>
    have hl := h.longest
    rw [h0] at hl
    have := hl.forget (t := a :: t) (k := m.delimiter.length) (by simp only [List.length_cons]; omega)
    rwa [List.take_length] at this

theorem Tracks.noEnd_forget {m : DelimiterMatcher} {s t : Buffer} (h : m.Tracks s) (h0 : m.matched = 0)
    (hno : NoEnd m.delimiter [] t) : NoEnd m.delimiter s t := by
  intro e he
  rw [h.suffix_forget h0]
  simpa using hno e he

theorem Tracks.firstEnd_forget {m : DelimiterMatcher} {s t : Buffer} {e : ℕ} (h : m.Tracks s)
    (h0 : m.matched = 0) (hf : FirstEnd m.delimiter [] t e) : FirstEnd m.delimiter s t e := by
  obtain ⟨h1, h2, h3⟩ := hf
  refine ⟨h1, (h.suffix_forget h0).2 (by simpa using h2), ?_⟩
  intro e' he'
  rw [h.suffix_forget h0]
  simpa using h3 e' he'

/-- With nothing pending, the automaton over the last bytes of a chunk without a delimiter tracks the whole chunk. -/
theorem feed_tail {m : DelimiterMatcher} {s t : Buffer} (hm : m.WF) (h : m.Tracks s) (h0 : m.matched = 0)
    (hno : NoEnd m.delimiter [] t) :
    Same m (m.feed (t.drop (t.length + 1 - m.delimiter.length))) ∧
      (m.feed (t.drop (t.length + 1 - m.delimiter.length))).Tracks (s ++ t) := by
  have hpos : 0 < m.delimiter.length := m.length_pos
  have hno' : NoEnd m.delimiter [] (t.drop (t.length + 1 - m.delimiter.length)) := by
    -- fewer bytes than the delimiter has
    intro e he hsuf
    have := hsuf.length_le
    simp only [List.nil_append, List.length_take, List.length_drop] at this he
    omega
  obtain ⟨hsame, htr⟩ := feed_spec _ hm (tracks_nil h0) hno'
  refine ⟨hsame, ?_, ?_⟩
  · rw [hsame.1]
    exact h.noEnd.append (h.noEnd_forget h0 hno)
  · have hl := htr.longest
    rw [hsame.1, List.nil_append] at hl
    rw [hsame.1]
    have hl0 := h.longest
    rw [h0] at hl0
    rw [hl0.forget_iff]
    by_cases hlen : t.length + 1 ≤ m.delimiter.length
    · rw [Nat.sub_eq_zero_of_le hlen, List.drop_zero] at hl ⊢
      exact hl
    · rwa [isLongest_drop_iff (by omega)] at hl

/-! ### `find` -/

/-- **`find`** reports the first end of a delimiter in the rest of the chunk, or tracks the whole of it. -/
theorem find_spec {m : DelimiterMatcher} {s chunk : Buffer} {offset : ℕ} (hm : m.WF) (h : m.Tracks s)
    (ho : offset ≤ chunk.length) :
    (∃ e, FirstEnd m.delimiter s (chunk.drop offset) e ∧
      m.find chunk offset = (some (offset + e), m.reset)) ∨
    (NoEnd m.delimiter s (chunk.drop offset) ∧
      ∃ m', m.find chunk offset = (none, m') ∧ Same m m' ∧ m'.Tracks (s ++ chunk.drop offset)) := by
  obtain ⟨e, he, hres⟩ | ⟨e, m₁, he, hres, hsame, htr, hno, hstop⟩ := resume_spec (chunk.drop offset) offset hm h
  · left
    exact ⟨e, he, by simp only [find, hres]⟩
  · rw [List.length_drop] at he hstop
    have hsplit : (chunk.drop offset).take e ++ chunk.drop (offset + e) = chunk.drop offset := by
      rw [← List.drop_drop]
      exact List.take_append_drop e _
    by_cases hend : offset + e = chunk.length
    · -- the chunk is used up while something may still be pending
      have hall : (chunk.drop offset).take e = chunk.drop offset :=
        List.take_of_length_le (by rw [List.length_drop]; omega)
      rw [hall] at htr hno
      right
      exact ⟨hno, m₁, by simp only [find, hres, if_pos hend], hsame, htr⟩
    · have h0 : m₁.matched = 0 := by
        rcases hstop with hstop | hstop
        · omega
        · exact hstop
      have hm₁ := hsame.wf hm
      cases hidx : Lib.Frames.indexOf m₁.delimiter (chunk.drop (offset + e)) with
      | some i =>
        left
        have hf := htr.firstEnd_forget h0 (firstEnd_of_indexOf_eq_some hidx)
        refine ⟨e + (i + m₁.delimiter.length), ?_, ?_⟩
        · -- no delimiter ends in the part the automaton has read
          obtain ⟨h1, h2, h3⟩ := hf
          rw [List.length_drop] at h1
          rw [hsame.1] at h2 h3 h1 ⊢
          have htl : ((chunk.drop offset).take e).length = e := by
            rw [List.length_take, List.length_drop]
            omega
          have htake : ∀ k, (chunk.drop offset).take (e + k) = (chunk.drop offset).take e ++
              (chunk.drop (offset + e)).take k := by
            intro k
            conv_lhs => rw [← hsplit]
            rw [List.take_append, List.take_of_length_le (by omega), htl, Nat.add_sub_cancel_left]
          refine ⟨by rw [List.length_drop]; omega, ?_, ?_⟩
          · rw [htake, ← List.append_assoc]
            exact h2
          · intro e' he'
            by_cases hle : e' ≤ e
            · have := hno e' (by omega)
              rwa [List.take_take, min_eq_left hle] at this
            · have := h3 (e' - e) (by omega)
              rw [List.append_assoc, ← htake, Nat.add_sub_cancel' (by omega)] at this
              exact this
        · simp only [find, hres, if_neg hend, hidx, Option.map_some]
          rw [← hsame.reset_eq, reset_eq_self h0]
          congr 2
          omega
      | none =>
        right
        have hno₁ := noEnd_of_indexOf_eq_none hidx
        obtain ⟨hs₂, htr₂⟩ := feed_tail hm₁ htr h0 hno₁
        refine ⟨?_, _, ?_, hsame.trans hs₂, ?_⟩
        · have := htr.noEnd_forget h0 hno₁
          rw [hsame.1] at this
          rw [← hsplit]
          exact hno.append this
        · simp only [find, hres, if_neg hend, hidx, Option.map_none]
          rw [List.drop_drop, List.length_drop]
          congr 4
          omega
        · rwa [List.append_assoc, hsplit] at htr₂

end DelimiterMatcher

end NodeSerialport.Parsers
