import Mathlib.Data.List.TakeWhile
import Mathlib.Data.UInt
import Mathlib.Tactic.Common
/-!
# Registry strings

`registry_string` (`src/platform/windows_list.rs`) asks a query twice, for the size of a property and for the property
itself.  Sizes are in bytes, the buffer holds UTF-16 code units, and the query may answer anything each time.

* `Query` — a closure with a state; it writes the kind, the size and the buffer it is given;
* `Outcome` — what a call allocates, and its result or its panic;
* `registryString`, `wideString`, `fromUtf16Lossy` — the functions;
* `registry_string_safe`: no call panics or allocates too much, and what it takes for a string.
-/

namespace NodeSerialport.Platform

/-- A slice out of bounds. -/
inductive Panic where
  | outOfBounds
  deriving DecidableEq, Repr

/-- What a query leaves behind, for a buffer of `n` code units. -/
structure Answer (σ : Type) (n : ℕ) where
  readable : Bool
  buffer : Vector UInt16 n
  kind : UInt32
  size : UInt32
  state : σ

/-- `FnMut(&mut [u16], &mut u32, &mut u32) -> bool`. -/
abbrev Query (σ : Type) := ∀ n, σ → Vector UInt16 n → UInt32 → UInt32 → Answer σ n

/-- A call: the lengths of the buffers it allocates, and its result. -/
structure Outcome where
  allocated : List ℕ
  result : Except Panic (Option (List Char))

/-! ### UTF-16 -/

def isHighSurrogate (u : UInt16) : Bool := 0xd800 ≤ u.toNat ∧ u.toNat ≤ 0xdbff

def isLowSurrogate (u : UInt16) : Bool := 0xdc00 ≤ u.toNat ∧ u.toNat ≤ 0xdfff

/-- `char::REPLACEMENT_CHARACTER`. -/
def replacement : Char := '\uFFFD'

/-- The character of a surrogate pair. -/
def surrogatePair (high low : UInt16) : Char :=
  Char.ofNat (0x10000 + (high.toNat - 0xd800) * 0x400 + (low.toNat - 0xdc00))

/-- `String::from_utf16_lossy`: an unpaired surrogate becomes the replacement character. -/
def fromUtf16Lossy : List UInt16 → List Char
  | [] => []
  | [u] => if isHighSurrogate u || isLowSurrogate u then [replacement] else [Char.ofNat u.toNat]
  | u :: v :: rest =>
    if isHighSurrogate u then
      if isLowSurrogate v then surrogatePair u v :: fromUtf16Lossy rest else replacement :: fromUtf16Lossy (v :: rest)
    else if isLowSurrogate u then replacement :: fromUtf16Lossy (v :: rest)
    else Char.ofNat u.toNat :: fromUtf16Lossy (v :: rest)

/-! ### The functions -/

/-- `&buffer[..stop]`. -/
def slice (buffer : List UInt16) (stop : ℕ) : Except Panic (List UInt16) :=
  if stop ≤ buffer.length then .ok (buffer.take stop) else .error .outOfBounds

/-- `buffer.get(..stop)`. -/
def get (buffer : List UInt16) (stop : ℕ) : Option (List UInt16) :=
  if stop ≤ buffer.length then some (buffer.take stop) else none

def wideString (buffer : List UInt16) : Except Panic (Option (List Char)) :=
  let stop := (buffer.findIdx? (· == 0)).getD buffer.length
  if stop ≠ 0 then (slice buffer stop).map fun units => some (fromUtf16Lossy units) else .ok none

def registryString {σ : Type} (query : Query σ) (state : σ) : Outcome :=
  let probe := query 0 state #v[] 0 0
  if probe.size = 0 then ⟨[], .ok none⟩
  else if probe.size.toNat > 64 * 1024 ∨ probe.size.toNat % 2 ≠ 0 then ⟨[], .ok none⟩
  else
    let length := probe.size.toNat / 2
    let read := query length probe.state (Vector.replicate length 0) probe.kind probe.size
    if !read.readable then ⟨[length], .ok none⟩
    else if read.kind ≠ 1 ∨ read.size.toNat % 2 ≠ 0 then ⟨[length], .ok none⟩
    else
      match get read.buffer.toList (read.size.toNat / 2) with
      | none => ⟨[length], .ok none⟩
      | some buffer => ⟨[length], wideString buffer⟩

/-! ### What they return -/

/-- The code units before the first that is zero. -/
def text (buffer : List UInt16) : List UInt16 := buffer.takeWhile (· ≠ 0)

theorem take_findIdx (buffer : List UInt16) :
    (buffer.findIdx? (· == 0)).getD buffer.length ≤ buffer.length ∧
      buffer.take ((buffer.findIdx? (· == 0)).getD buffer.length) = text buffer := by
  induction buffer with
  | nil => exact ⟨le_refl 0, rfl⟩
  | cons u rest ih =>
    obtain ⟨hle, htake⟩ := ih
    unfold text at htake ⊢
    by_cases hu : u = 0
    · simp [List.findIdx?_cons, hu]
    · have hstop : ((u :: rest).findIdx? (· == 0)).getD (u :: rest).length =
          (rest.findIdx? (· == 0)).getD rest.length + 1 := by
        cases hfind : rest.findIdx? (· == 0) <;> simp [List.findIdx?_cons, hu, hfind]
      rw [hstop, List.take_succ_cons, htake, List.takeWhile_cons_of_pos (by simpa using hu), List.length_cons]
      exact ⟨Nat.succ_le_succ hle, rfl⟩

/-- **`wide_string`** decodes the text of a buffer, where there is one. -/
theorem wideString_eq (buffer : List UInt16) :
    wideString buffer = .ok (if text buffer = [] then none else some (fromUtf16Lossy (text buffer))) := by
  obtain ⟨hle, htake⟩ := take_findIdx buffer
  have hempty : (buffer.findIdx? (· == 0)).getD buffer.length = 0 ↔ text buffer = [] := by
    rw [← htake, List.take_eq_nil_iff]
    constructor
    · exact .inl
    · rintro (hzero | rfl)
      · exact hzero
      · rfl
  unfold wideString slice
  dsimp only
  by_cases hstop : (buffer.findIdx? (· == 0)).getD buffer.length = 0
  · rw [if_neg (not_not.2 hstop), if_pos (hempty.1 hstop)]
  · rw [if_pos hstop, if_pos hle, if_neg (fun hnil => hstop (hempty.2 hnil)), htake]
    rfl

variable {σ : Type}

/-- The answer to the size probe. -/
def probed (query : Query σ) (state : σ) : Answer σ 0 := query 0 state #v[] 0 0

/-- The answer to the read, into the buffer the size probe asked for. -/
def answered (query : Query σ) (state : σ) : Answer σ ((probed query state).size.toNat / 2) :=
  query _ (probed query state).state (Vector.replicate _ 0) (probed query state).kind (probed query state).size

/-- Both answers make a string: the size of the probe is not zero, even and at most 64 KiB; the read succeeded with
`REG_SZ` and an even size within the buffer; and there is a code unit before the first zero inside that size. -/
structure Accepted (query : Query σ) (state : σ) (units : List UInt16) : Prop where
  present : (probed query state).size ≠ 0
  bounded : (probed query state).size.toNat ≤ 65536
  probe_even : (probed query state).size.toNat % 2 = 0
  readable : (answered query state).readable = true
  kind : (answered query state).kind = 1
  read_even : (answered query state).size.toNat % 2 = 0
  within : (answered query state).size.toNat ≤ 2 * (answered query state).buffer.toList.length
  content : units = text ((answered query state).buffer.toList.take ((answered query state).size.toNat / 2))
  nonempty : units ≠ []

theorem safe_of_none {query : Query σ} {state : σ} {allocated : List ℕ} (h : registryString query state = ⟨allocated, .ok none⟩)
    (hallocated : ∀ length ∈ allocated, length ≤ 32768) (hno : ∀ units, ¬ Accepted query state units) :
    (∃ result, (registryString query state).result = .ok result) ∧
      (∀ length ∈ (registryString query state).allocated, length ≤ 32768) ∧
      ∀ s, (registryString query state).result = .ok (some s) ↔
        ∃ units, Accepted query state units ∧ s = fromUtf16Lossy units := by
  rw [h]
  refine ⟨⟨none, rfl⟩, hallocated, fun s => ⟨fun hs => ?_, ?_⟩⟩
  · cases Except.ok.inj hs
  · rintro ⟨units, haccepted, -⟩
    exact absurd haccepted (hno units)

/-- **Registry strings are read safely.**  Whatever the query answers each time: the call does not panic, it allocates at
most 32768 code units, and it returns a string exactly where both answers make one. -/
theorem registry_string_safe (query : Query σ) (state : σ) :
    (∃ result, (registryString query state).result = .ok result) ∧
      (∀ length ∈ (registryString query state).allocated, length ≤ 32768) ∧
      ∀ s, (registryString query state).result = .ok (some s) ↔
        ∃ units, Accepted query state units ∧ s = fromUtf16Lossy units := by
  have hunfold : registryString query state = if (probed query state).size = 0 then ⟨[], .ok none⟩
      else if (probed query state).size.toNat > 64 * 1024 ∨ (probed query state).size.toNat % 2 ≠ 0 then ⟨[], .ok none⟩
      else if !(answered query state).readable then ⟨[(probed query state).size.toNat / 2], .ok none⟩
      else if (answered query state).kind ≠ 1 ∨ (answered query state).size.toNat % 2 ≠ 0 then
        ⟨[(probed query state).size.toNat / 2], .ok none⟩
      else
        match get (answered query state).buffer.toList ((answered query state).size.toNat / 2) with
        | none => ⟨[(probed query state).size.toNat / 2], .ok none⟩
        | some buffer => ⟨[(probed query state).size.toNat / 2], wideString buffer⟩ := rfl
  by_cases hpresent : (probed query state).size = 0
  · rw [if_pos hpresent] at hunfold
    exact safe_of_none hunfold nofun fun _ h => h.present hpresent
  by_cases hsize : (probed query state).size.toNat > 64 * 1024 ∨ (probed query state).size.toNat % 2 ≠ 0
  · rw [if_neg hpresent, if_pos hsize] at hunfold
    refine safe_of_none hunfold nofun fun _ h => ?_
    have := h.bounded
    have := h.probe_even
    omega
  have hallocated : ∀ length ∈ [(probed query state).size.toNat / 2], length ≤ 32768 := by
    intro length hmem
    obtain rfl := List.mem_singleton.1 hmem
    omega
  rw [if_neg hpresent, if_neg hsize] at hunfold
  by_cases hreadable : (answered query state).readable = true
  swap
  · rw [if_pos (by simpa using hreadable)] at hunfold
    exact safe_of_none hunfold hallocated fun _ h => hreadable h.readable
  by_cases hkind : (answered query state).kind ≠ 1 ∨ (answered query state).size.toNat % 2 ≠ 0
  · rw [if_neg (by simpa using hreadable), if_pos hkind] at hunfold
    exact safe_of_none hunfold hallocated fun _ h => hkind.elim (fun hne => hne h.kind) fun hne => hne h.read_even
  rw [if_neg (by simpa using hreadable), if_neg hkind] at hunfold
  unfold get at hunfold
  by_cases hwithin : (answered query state).size.toNat / 2 ≤ (answered query state).buffer.toList.length
  swap
  · rw [if_neg hwithin] at hunfold
    refine safe_of_none hunfold hallocated fun _ h => hwithin ?_
    have := h.within
    omega
  -- the read is within the buffer
  rw [if_pos hwithin] at hunfold
  dsimp only at hunfold
  rw [wideString_eq] at hunfold
  obtain ⟨hkind, heven⟩ := not_or.1 hkind
  by_cases hempty : text ((answered query state).buffer.toList.take ((answered query state).size.toNat / 2)) = []
  · rw [if_pos hempty] at hunfold
    exact safe_of_none hunfold hallocated fun _ h => h.nonempty (h.content.trans hempty)
  · rw [if_neg hempty] at hunfold
    rw [hunfold]
    refine ⟨⟨_, rfl⟩, hallocated, fun s => ⟨fun hs => ?_, ?_⟩⟩
    · refine ⟨_, ⟨hpresent, by omega, by omega, hreadable, not_not.1 hkind, not_not.1 heven, by omega, rfl, hempty⟩, ?_⟩
      exact (Option.some.inj (Except.ok.inj hs)).symm
    · rintro ⟨units, haccepted, rfl⟩
      rw [haccepted.content]

end NodeSerialport.Platform
