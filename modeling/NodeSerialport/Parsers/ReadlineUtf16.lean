import NodeSerialport.Parsers.Readline

/-!
# `ReadlineParser` in UTF-16LE

A code unit takes two bytes, and the search for the delimiter looks at every byte offset.  The bytes of a delimiter can
occur at an odd offset, across code units; the parser recognises it there.

* `Utf16Decoder` — the decoder of a readable: it keeps half a code unit, and a high surrogate that ends a buffer;
* `Complete L` — no text of `L` ends in a high surrogate that the decoder would keep;
* `offsets` — where the delimiters recognised start;
* `readline_utf16le_iff`: the texts that are split as they should be.
-/

namespace NodeSerialport.Parsers

open NodeSerialport.Lib NodeSerialport.Lib.Frames

/-- UTF-16LE, two bytes for each code unit. -/
def utf16le : Code UInt16 UInt8 where
  word u := [UInt8.ofNat u.toNat, UInt8.ofNat (u.toNat / 256)]
  nonempty := fun _ => List.cons_ne_nil _ _
  prefixFree := by
    intro a b x y h
    simp only [List.cons_append, List.nil_append, List.cons.injEq] at h
    obtain ⟨hlow, hhigh, -⟩ := h
    have h1 := congrArg UInt8.toNat hlow
    have h2 := congrArg UInt8.toNat hhigh
    have ha := a.toNat_lt
    have hb := b.toNat_lt
    simp only [UInt8.toNat_ofNat'] at h1 h2
    apply UInt16.toNat_inj.1
    omega

/-- The code units of a buffer; a byte left over is dropped. -/
def units : Buffer → List UInt16
  | low :: high :: rest => UInt16.ofNat (low.toNat + 256 * high.toNat) :: units rest
  | _ => []

def isHighSurrogate (u : UInt16) : Bool := 0xd800 ≤ u.toNat ∧ u.toNat ≤ 0xdbff

/-- `StringDecoder` for UTF-16LE: the bytes it keeps, and how many are missing. -/
structure Utf16Decoder where
  buffered : Buffer := []
  missing : ℕ := 0
  deriving DecidableEq, Repr

namespace Utf16Decoder

/-- Decode a buffer when nothing is kept: half a code unit is kept, and so is a high surrogate at its end. -/
def text (buffer : Buffer) : List UInt16 × Utf16Decoder :=
  if buffer.length % 2 = 1 then
    (units buffer, { buffered := buffer.drop (buffer.length - 1), missing := 1 })
  else if (units buffer).getLast?.any isHighSurrogate then
    ((units buffer).dropLast, { buffered := buffer.drop (buffer.length - 2), missing := 2 })
  else (units buffer, {})

/-- `decoder.write(buffer)`: what is kept is completed first. -/
def write (d : Utf16Decoder) (buffer : Buffer) : List UInt16 × Utf16Decoder :=
  if d.missing = 0 then text buffer
  else if buffer.length < d.missing then
    ([], { buffered := d.buffered ++ buffer, missing := d.missing - buffer.length })
  else
    let rest := text (buffer.drop d.missing)
    (units (d.buffered ++ buffer.take d.missing) ++ rest.1, rest.2)

/-- `decoder.end()`. -/
def finish (d : Utf16Decoder) : List UInt16 := units d.buffered

end Utf16Decoder

def utf16leEncoding : Encoding UInt16 Utf16Decoder where
  bytes := utf16le.encode
  newline := [0x0a]
  start := {}
  write := Utf16Decoder.write
  finish := Utf16Decoder.finish

namespace ReadlineParser

/-! ### Decoding buffers of whole code units -/

theorem units_encode (s : List UInt16) : units (utf16le.encode s) = s := by
  induction s with
  | nil => rfl
  | cons u s ih =>
    have hu : UInt16.ofNat ((UInt8.ofNat u.toNat).toNat + 256 * (UInt8.ofNat (u.toNat / 256)).toNat) = u := by
      apply UInt16.toNat_inj.1
      have := u.toNat_lt
      simp only [UInt8.toNat_ofNat', UInt16.toNat_ofNat']
      omega
    rw [Code.encode_cons]
    show UInt16.ofNat _ :: units (utf16le.encode s) = _
    rw [hu, ih]

theorem length_encode (s : List UInt16) : (utf16le.encode s).length = 2 * s.length := by
  induction s with
  | nil => rfl
  | cons u s ih =>
    rw [Code.encode_cons, List.length_append, ih, List.length_cons]
    show 2 + _ = _
    omega

theorem encode_units {b : Buffer} (h : b.length % 2 = 0) : utf16le.encode (units b) = b := by
  induction b using units.induct with
  | case1 low high rest ih =>
    have hlow : UInt8.ofNat (UInt16.ofNat (low.toNat + 256 * high.toNat)).toNat = low := by
      apply UInt8.toNat_inj.1
      have := low.toNat_lt
      have := high.toNat_lt
      simp only [UInt8.toNat_ofNat', UInt16.toNat_ofNat']
      omega
    have hhigh : UInt8.ofNat ((UInt16.ofNat (low.toNat + 256 * high.toNat)).toNat / 256) = high := by
      apply UInt8.toNat_inj.1
      have := low.toNat_lt
      have := high.toNat_lt
      simp only [UInt8.toNat_ofNat', UInt16.toNat_ofNat']
      omega
    rw [units, Code.encode_cons, ih (by simp only [List.length_cons] at h; omega)]
    show UInt8.ofNat _ :: UInt8.ofNat _ :: rest = _
    rw [hlow, hhigh]
  | case2 b hb =>
    cases b with
    | nil => rfl
    | cons low b =>
      cases b with
      | nil => simp at h
      | cons high b => exact absurd rfl (hb low high b)

theorem text_encode (s : List UInt16) (h : s.getLast?.any isHighSurrogate = false) :
    Utf16Decoder.text (utf16le.encode s) = (s, {}) := by
  unfold Utf16Decoder.text
  rw [if_neg (by rw [length_encode]; omega), units_encode, h]
  simp

theorem text_encode_surrogate (s : List UInt16) {u : UInt16} (h : isHighSurrogate u = true) :
    Utf16Decoder.text (utf16le.encode (s ++ [u])) = (s, { buffered := utf16le.encode [u], missing := 2 }) := by
  have hdrop : (utf16le.encode (s ++ [u])).drop ((utf16le.encode (s ++ [u])).length - 2) = utf16le.encode [u] := by
    rw [length_encode, Code.encode_append, List.length_append, List.length_singleton]
    exact List.drop_left' (by rw [length_encode]; omega)
  unfold Utf16Decoder.text
  rw [if_neg (by rw [length_encode]; omega), units_encode, hdrop]
  simp [h]

/-- No text ends in a high surrogate, but for a last one that is nothing else. -/
def Complete : List (List UInt16) → Prop
  | [] => True
  | [s] => s.getLast?.any isHighSurrogate = true → s.length = 1
  | s :: rest => s.getLast?.any isHighSurrogate = false ∧ Complete rest

theorem complete_cons {s : List UInt16} {rest : List (List UInt16)} (h : s.getLast?.any isHighSurrogate = false) :
    Complete (s :: rest) ↔ Complete rest := by
  cases rest with
  | nil => simp [Complete, h]
  | cons t rest => simp [Complete, h]

theorem not_complete {s : List UInt16} {rest : List (List UInt16)} (hs : s.getLast?.any isHighSurrogate = true)
    (h : s.length ≠ 1 ∨ rest ≠ []) : ¬ Complete (s :: rest) := by
  cases rest with
  | nil => simpa [Complete, hs] using h
  | cons t rest => simp [Complete, hs]

theorem emitted_cons (decoder : Utf16Decoder) {s : List UInt16} (hs : s ≠ []) (rest : List (List UInt16)) :
    utf16leEncoding.emitted decoder ((s :: rest).map utf16le.encode) =
      [(decoder.write (utf16le.encode s)).1].filter (· ≠ []) ++
        utf16leEncoding.emitted (decoder.write (utf16le.encode s)).2 (rest.map utf16le.encode) := by
  rw [List.map_cons, Encoding.emitted, if_neg (fun h => hs (Code.encode_eq_nil_iff.1 h))]
  rfl

/-- A high surrogate that is kept starts what is emitted next, or is emitted at the end. -/
theorem emitted_kept (u : UInt16) {rest : List (List UInt16)} (hrest : ∀ s ∈ rest, s ≠ []) :
    match rest with
    | [] => utf16leEncoding.emitted { buffered := utf16le.encode [u], missing := 2 } [] = [[u]]
    | s :: rest => ∃ head tail, 2 ≤ head.length ∧
        utf16leEncoding.emitted { buffered := utf16le.encode [u], missing := 2 } ((s :: rest).map utf16le.encode) =
          head :: tail := by
  cases rest with
  | nil =>
    have hfinish : utf16leEncoding.finish { buffered := utf16le.encode [u], missing := 2 } = [u] := units_encode [u]
    rw [Encoding.emitted, hfinish]
    rfl
  | cons s rest =>
    have hs := hrest s (by simp)
    obtain ⟨v, t, rfl⟩ := List.exists_cons_of_ne_nil hs
    have hlen : ¬ (utf16le.encode (v :: t)).length < 2 := by
      rw [length_encode, List.length_cons]
      omega
    have hwrite : Utf16Decoder.write { buffered := utf16le.encode [u], missing := 2 } (utf16le.encode (v :: t)) =
        (u :: v :: (Utf16Decoder.text (utf16le.encode t)).1, (Utf16Decoder.text (utf16le.encode t)).2) := by
      have hunits : units (utf16le.encode [u] ++ (utf16le.encode (v :: t)).take 2) = [u, v] := units_encode [u, v]
      simp only [Utf16Decoder.write, if_neg hlen, hunits]
      rfl
    show ∃ head tail, _
    rw [emitted_cons _ hs, hwrite, List.filter_cons_of_pos (by simp)]
    exact ⟨_, _, by simp, rfl⟩

/-- **Decoding line by line** gives the lines exactly when none of them is kept in part. -/
theorem emitted_encode_iff {lines : List (List UInt16)} (hlines : ∀ s ∈ lines, s ≠ []) :
    utf16leEncoding.emitted {} (lines.map utf16le.encode) = lines ↔ Complete lines := by
  induction lines with
  | nil => simp [Encoding.emitted, Complete, utf16leEncoding, Utf16Decoder.finish, units]
  | cons s rest ih =>
    have hs := hlines s (by simp)
    have hrest : ∀ t ∈ rest, t ≠ [] := fun t ht => hlines t (List.mem_cons_of_mem _ ht)
    have hidle : Utf16Decoder.write {} (utf16le.encode s) = Utf16Decoder.text (utf16le.encode s) := rfl
    rw [emitted_cons _ hs, hidle]
    cases hsur : s.getLast?.any isHighSurrogate with
    | false =>
      rw [text_encode s hsur, complete_cons hsur, ← ih hrest, List.filter_cons_of_pos (by simpa using hs)]
      simp
    | true =>
      -- the line ends in a high surrogate `u`, which is kept
      obtain ⟨t, u, rfl⟩ : ∃ t u, s = t ++ [u] := ⟨_, _, (List.dropLast_append_getLast hs).symm⟩
      rw [text_encode_surrogate t (by simpa using hsur)]
      by_cases ht : t = []
      · subst ht
        have hkept := emitted_kept u hrest
        cases rest with
        | nil =>
          rw [List.map_nil, hkept]
          simp [Complete]
        | cons v rest =>
          obtain ⟨head, tail, hlen, he⟩ := hkept
          refine iff_of_false ?_ (not_complete hsur (Or.inr (by simp)))
          rw [he]
          intro heq
          obtain ⟨rfl, -⟩ := List.cons.inj heq
          simp at hlen
      · -- what is emitted is shorter than the line
        have hlen : 0 < t.length := List.length_pos_iff.2 ht
        refine iff_of_false ?_ (not_complete hsur (Or.inl (by simpa using ht)))
        rw [List.filter_cons_of_pos (by simpa using ht)]
        intro heq
        have hhead := congrArg List.length (List.cons.inj heq).1
        simp at hhead

/-! ### Lines of a UTF-16LE text -/

/-- The byte offsets at which the recognised delimiters start: one behind every buffer pushed but the last. -/
def offsets (delimiterLength : ℕ) : ℕ → List Buffer → List ℕ
  | start, frame :: next :: rest =>
    (start + frame.length) :: offsets delimiterLength (start + frame.length + delimiterLength) (next :: rest)
  | _, _ => []

/-- The parser splits the text: it recognises delimiters at code unit boundaries only, and the nonempty strings
emitted are the nonempty pieces of the text. -/
def Splits (d text : List UInt16) (chunks : List Buffer) : Prop :=
  ∃ p, create utf16leEncoding (some (.inl d)) = .ok p ∧ (DelimiterParser.stream.runEnd p chunks).error = none ∧
    (∀ o ∈ offsets (utf16leEncoding.bytes d).length 0 (DelimiterParser.stream.runEnd p chunks).pushed, o % 2 = 0) ∧
    utf16leEncoding.emitted utf16leEncoding.start (DelimiterParser.stream.runEnd p chunks).pushed = pieces d text

/-- Delimiters of an even length start at even offsets exactly when they stand behind buffers of even lengths. -/
theorem offsets_even_iff {n start : ℕ} (hn : n % 2 = 0) (hstart : start % 2 = 0) (F : List Buffer) (r : Buffer) :
    (∀ o ∈ offsets n start (F ++ [r]), o % 2 = 0) ↔ ∀ f ∈ F, f.length % 2 = 0 := by
  induction F generalizing start with
  | nil => simp [offsets]
  | cons f F ih =>
    have hcons : offsets n start (f :: F ++ [r]) = (start + f.length) :: offsets n (start + f.length + n) (F ++ [r]) := by
      cases F <;> rfl
    rw [hcons, List.forall_mem_cons, List.forall_mem_cons]
    constructor
    · rintro ⟨h1, h2⟩
      exact ⟨by omega, (ih (by omega)).1 h2⟩
    · rintro ⟨h1, h2⟩
      exact ⟨by omega, (ih (by omega)).2 h2⟩

theorem frames_length_even {d : Buffer} (hlen : d.length % 2 = 0) (hd : d ≠ []) {s : Buffer} (hs : s.length % 2 = 0)
    (heven : ∀ f ∈ (frames d s).1, f.length % 2 = 0) : (frames d s).2.length % 2 = 0 := by
  induction hn : s.length using Nat.strong_induction_on generalizing s with
  | _ n ih =>
    cases hi : indexOf d s with
    | none => rwa [frames_of_none hi]
    | some i =>
      have hle := indexOf_add_length_le hi
      have hpos : 0 < d.length := List.length_pos_iff.2 hd
      rw [frames_of_some hd hi, List.forall_mem_cons, List.length_take, min_eq_left (by omega)] at heven
      rw [frames_of_some hd hi]
      exact ih (s.drop (i + d.length)).length (by rw [List.length_drop]; omega)
        (by rw [List.length_drop]; omega) heven.2 rfl

/-- A text is aligned exactly when the frames of its encoding have even lengths. -/
theorem aligned_iff_even {d text : List UInt16} (hd : d ≠ []) : utf16le.Aligned d text ↔
    ∀ f ∈ (frames (utf16le.encode d) (utf16le.encode text)).1, f.length % 2 = 0 := by
  constructor
  · intro h f hf
    rw [Code.frames_encode hd h] at hf
    obtain ⟨s, -, rfl⟩ := List.mem_map.1 hf
    rw [length_encode]
    omega
  · intro heven
    -- the remainder is of whole code units too
    have hde : utf16le.encode d ≠ [] := fun h => hd (Code.encode_eq_nil_iff.1 h)
    have hrest := frames_length_even (d := utf16le.encode d) (by rw [length_encode]; omega) hde
      (s := utf16le.encode text) (by rw [length_encode]; omega) heven
    refine Code.aligned_of_frames hd
      (F := (frames (utf16le.encode d) (utf16le.encode text)).1.map units)
      (r := units (frames (utf16le.encode d) (utf16le.encode text)).2) ?_
    refine Prod.ext ?_ (encode_units hrest).symm
    rw [List.map_map]
    refine (List.map_id _).symm.trans (List.map_congr_left ?_)
    intro f hf
    exact (encode_units (heven f hf)).symm

/-- **When a UTF-16LE text is split.**  For every text, every nonempty delimiter and every way of cutting the bytes of
the text into chunks, the parser splits the text exactly when no shifted occurrence of the delimiter starts inside a
piece and the decoder keeps no part of a piece. -/
theorem readline_utf16le_iff (d : List UInt16) (hd : d ≠ []) (text : List UInt16) (chunks : List Buffer)
    (hchunks : chunks.flatten = utf16le.encode text) :
    Splits d text chunks ↔ utf16le.Aligned d text ∧ Complete (pieces d text) := by
  have hde : utf16leEncoding.bytes d ≠ [] := fun h => hd (Code.encode_eq_nil_iff.1 h)
  obtain ⟨p, hp, hok, hpushed⟩ := pushed_eq utf16leEncoding hde chunks
  have hbytes : utf16leEncoding.bytes d = utf16le.encode d := rfl
  rw [hbytes, hchunks] at hpushed
  have hlines : ∀ s ∈ pieces d text, s ≠ [] := by
    intro s hs
    simpa using (List.mem_filter.1 hs).2
  -- the strings emitted for an aligned text are the decoded pieces
  have hemitted : utf16le.Aligned d text → utf16leEncoding.emitted utf16leEncoding.start
      (DelimiterParser.stream.runEnd p chunks).pushed = utf16leEncoding.emitted {} ((pieces d text).map utf16le.encode) := by
    intro haligned
    have hmap : (frames d text).1.map utf16le.encode ++ [utf16le.encode (frames d text).2] =
        ((frames d text).1 ++ [(frames d text).2]).map utf16le.encode := by
      rw [List.map_append]
      rfl
    rw [hpushed, Code.frames_encode hd haligned, hmap, ← emitted_filter, filter_encode]
    rfl
  have heven : (∀ o ∈ offsets (utf16leEncoding.bytes d).length 0 (DelimiterParser.stream.runEnd p chunks).pushed,
      o % 2 = 0) ↔ utf16le.Aligned d text := by
    rw [hpushed, hbytes, offsets_even_iff (by rw [length_encode]; omega) rfl, aligned_iff_even hd]
  constructor
  · rintro ⟨p', hp', -, hoffsets, hstrings⟩
    rw [hp] at hp'
    obtain rfl := Except.ok.inj hp'
    have haligned := heven.1 hoffsets
    rw [hemitted haligned] at hstrings
    exact ⟨haligned, (emitted_encode_iff hlines).1 hstrings⟩
  · rintro ⟨haligned, hcomplete⟩
    refine ⟨p, hp, hok, heven.2 haligned, ?_⟩
    rw [hemitted haligned]
    exact (emitted_encode_iff hlines).2 hcomplete

/-- Two lines with a delimiter of two code units, cut inside code units. -/
theorem readline_utf16le_fragments :
    Splits [0x0d, 0x0a] [0x3b1, 0x0d, 0x0a, 0x3b2] [[0xb1], [0x03, 0x0d, 0x00], [0x0a], [0x00, 0xb2, 0x03]] := by
  have hframes : frames (utf16le.encode [0x0d, 0x0a]) (utf16le.encode [0x3b1, 0x0d, 0x0a, 0x3b2]) =
      ([[0xb1, 0x03]], [0xb2, 0x03]) := by
    rw [frames_of_some (i := 2) (by decide) (by decide), frames_of_none (by decide)]
    rfl
  have hpieces : frames [0x0d, 0x0a] ([0x3b1, 0x0d, 0x0a, 0x3b2] : List UInt16) = ([[0x3b1]], [0x3b2]) := by
    rw [frames_of_some (i := 1) (by decide) (by decide), frames_of_none (by decide)]
    rfl
  refine (readline_utf16le_iff [0x0d, 0x0a] (by decide) [0x3b1, 0x0d, 0x0a, 0x3b2] _ (by decide)).2 ⟨?_, ?_⟩
  · rw [aligned_iff_even (by decide), hframes]
    decide
  · rw [pieces, hpieces]
    exact ⟨by decide, fun _ => rfl⟩

/-- The bytes of a line feed across two code units: the parser recognises a delimiter in a text that has none, and
emits a character that is not in the text. -/
theorem readline_utf16le_shifted : ¬ Splits [0x0a] [0x0a41, 0x0100] [[0x41, 0x0a, 0x00, 0x01]] ∧
    pieces [0x0a] ([0x0a41, 0x0100] : List UInt16) = [[0x0a41, 0x0100]] ∧
    ∃ p, create utf16leEncoding (some (.inl [0x0a])) = .ok p ∧
      utf16leEncoding.emitted {} (DelimiterParser.stream.runEnd p [[0x41, 0x0a, 0x00, 0x01]]).pushed = [[0x0141]] := by
  have hframes : frames (utf16leEncoding.bytes [0x0a]) ([[0x41, 0x0a, 0x00, 0x01]] : List Buffer).flatten =
      ([[0x41]], [0x01]) := by
    rw [frames_of_some (i := 1) (by decide) (by decide), frames_of_none (by decide)]
    rfl
  obtain ⟨p, hp, -, hpushed⟩ := pushed_eq utf16leEncoding (d := [0x0a]) (by decide) [[0x41, 0x0a, 0x00, 0x01]]
  rw [hframes] at hpushed
  refine ⟨?_, ?_, p, hp, ?_⟩
  · rintro ⟨p', hp', -, hoffsets, -⟩
    rw [hp] at hp'
    obtain rfl := Except.ok.inj hp'
    rw [hpushed] at hoffsets
    exact absurd (hoffsets 1 (by decide)) (by decide)
  · rw [pieces, frames_of_none (by decide)]
    rfl
  · rw [hpushed]
    decide

end ReadlineParser

end NodeSerialport.Parsers
