import NodeSerialport.Parsers.Slip

/-!
# The SLIP encoding, byte by byte

* `SlipSettings.escapeCode`, `SlipSettings.encoding` — the encoding, read off the options;
* `encode_eq_encoding`: the table of the encoder holds these codes;
* `slip_encoder_exact`: the encoder emits the encoding, and fills the buffer it allocates exactly.
-/

namespace NodeSerialport.Parsers

namespace SlipSettings

/-- The escape code of a byte.  Of equal codes the later one counts, in the order `ESC`, `END`, `START`. -/
def escapeCode (s : SlipSettings) (byte : UInt8) : Option UInt8 :=
  if s.START = some byte ∧ s.ESC_START.isSome then s.ESC_START
  else if byte = s.END then some s.ESC_END
  else if byte = s.ESC then some s.ESC_ESC
  else none

/-- A byte that has an escape code becomes `ESC` and that code. -/
def escaped (s : SlipSettings) (byte : UInt8) : Buffer :=
  match s.escapeCode byte with
  | none => [byte]
  | some code => [s.ESC, code]

/-- **The encoding** of a payload. -/
def encoding (s : SlipSettings) (payload : Buffer) : Buffer :=
  (if s.bluetoothQuirk then [s.END] else []) ++ s.START.toList ++ payload.flatMap s.escaped ++ [s.END]

end SlipSettings

namespace SlipEncoder

theorem new_codes (s : SlipSettings) (byte : UInt8) : (new s).codes byte = s.escapeCode byte := by
  have hbase : Codes.set (Codes.set (fun _ => none) s.ESC s.ESC_ESC) s.END s.ESC_END byte =
      if byte = s.END then some s.ESC_END else if byte = s.ESC then some s.ESC_ESC else none := by
    simp only [Codes.set, Function.update_apply]
  unfold SlipSettings.escapeCode
  cases hstart : s.START with
  | none => simp [new, hstart, hbase]
  | some START =>
    cases hescape : s.ESC_START with
    | none => simp [new, hstart, hescape, hbase]
    | some ESC_START =>
      by_cases heq : START = byte
      · simp [new, hstart, hescape, Codes.set, heq]
      · have hne : ¬ byte = START := fun h => heq h.symm
        have hset : (Codes.set (Codes.set (fun _ => none) s.ESC s.ESC_ESC) s.END s.ESC_END).set START ESC_START byte =
            Codes.set (Codes.set (fun _ => none) s.ESC s.ESC_ESC) s.END s.ESC_END byte := Function.update_of_ne hne _ _
        simp [new, hstart, hescape, hset, hbase, heq]

theorem encode_eq_encoding (s : SlipSettings) (payload : Buffer) : (new s).encode payload = s.encoding payload := by
  have hescape : (new s).escape = s.escaped := by
    funext byte
    unfold escape SlipSettings.escaped
    rw [new_codes]
    rfl
  unfold encode SlipSettings.encoding
  rw [hescape]
  rfl

/-- **The encoder is exact.**  For every configuration the constructor accepts, every payload and whatever memory the buffer
is allocated from: it emits the encoding of the payload (nothing for an empty payload under the quirk); as many bytes are
written as were allocated; and what the bulk copy writes is what the byte loop would write. -/
theorem slip_encoder_exact (options : SlipOptions) (e : SlipEncoder) (hcreate : create options = .ok e)
    (memory : ℕ → UInt8) (payload : Buffer) :
    settings options = .ok e.options ∧
      transform memory e payload =
        (if e.options.bluetoothQuirk && payload.length = 0 then [] else [e.options.encoding payload]) ∧
      (e.written payload).length = e.outputLength payload ∧ e.written payload = e.encode payload := by
  obtain ⟨s, hs, rfl⟩ := create_eq_ok.1 hcreate
  refine ⟨hs, ?_, written_length s payload, written_eq s payload⟩
  rw [transform_eq, encode_eq_encoding]
  rfl

/-- All codes are given, and the quirk is on. -/
theorem slip_encoder_exact_quirk : ∃ e,
    create { START := some 0x7e, ESC_START := some 0x11, bluetoothQuirk := true } = .ok e ∧
    transform (fun _ => 0) e [0x7e, 0xc0, 5] = [[0xc0, 0x7e, 0xdb, 0x11, 0xdb, 0xdc, 5, 0xc0]] := by
  obtain ⟨e, he⟩ : ∃ e, create { START := some 0x7e, ESC_START := some 0x11, bluetoothQuirk := true } = .ok e := ⟨_, rfl⟩
  obtain ⟨hsettings, htransform, -, -⟩ := slip_encoder_exact _ e he (fun _ => 0) [0x7e, 0xc0, 5]
  have hoptions : e.options = { START := some 0x7e, ESC_START := some 0x11, bluetoothQuirk := true } :=
    (Except.ok.inj hsettings).symm
  refine ⟨e, he, ?_⟩
  rw [htransform, hoptions]
  decide

end SlipEncoder

end NodeSerialport.Parsers
