import NodeSerialport.Settings.Options
import NodeSerialport.Native.Reactor
/-!
# Devices and their settings

What `src/settings.rs` makes of the options it gets, and what a device is opened with.

* `NativeOptions`, `builder` — the options, and the checks of `open`;
* `Line.refused`, `builder_line` — for the options of a line these refuse what the platform has not, and nothing else;
* `options_opened` — from what a caller passes to what a device is opened with.
-/

namespace NodeSerialport.Settings

open Lib (check)
open Native (IoError)

/-! ### Options -/

inductive Platform where
  /-- Linux and Android. -/
  | linux
  | macos
  /-- Another Unix. -/
  | unix
  | windows
  deriving DecidableEq, Repr

def Platform.isUnix : Platform → Bool
  | .windows => false
  | _ => true

structure NativeOptions where
  path : String
  baudRate : ℕ
  dataBits : ℕ
  stopBits : Number
  parity : String
  lock : Bool
  rtscts : Bool
  xon : Bool
  xoff : Bool
  xany : Bool
  hupcl : Bool

/-- The values the fields have in JavaScript. -/
def NativeOptions.value (options : NativeOptions) : Key → Value
  | .path => .string options.path
  | .baudRate => .number (.finite (options.baudRate : ℚ))
  | .dataBits => .number (.finite (options.dataBits : ℚ))
  | .stopBits => .number options.stopBits
  | .parity => .string options.parity
  | .lock => .boolean options.lock
  | .rtscts => .boolean options.rtscts
  | .xon => .boolean options.xon
  | .xoff => .boolean options.xoff
  | .xany => .boolean options.xany
  | .hupcl => .boolean options.hupcl

/-- The native handle gets the values of the settings. -/
def Converts (settings : Properties Key) (options : NativeOptions) : Prop := ∀ key, settings.get key = options.value key

/-- The options of a line. -/
def Line.native (line : Line) : NativeOptions :=
  { path := line.path.1, baudRate := line.baudRate.1, dataBits := line.dataBits.number, stopBits := .finite line.stopBits.number,
    parity := line.parity.name, lock := line.lock, rtscts := line.rtscts, xon := line.xon, xoff := line.xoff, xany := line.xany,
    hupcl := line.hupcl }

theorem Line.native_value (line : Line) (key : Key) : line.native.value key = line.value key := by cases key <;> rfl

theorem Converts.native {settings : Properties Key} {options : NativeOptions} (h : Converts settings options) {line : Line}
    (hline : ∀ key, settings.get key = line.value key) : options = line.native := by
  have hsame : ∀ key, options.value key = line.native.value key := fun key =>
    (h key).symm.trans ((hline key).trans (line.native_value key).symm)
  have hflag (key : Key) {x y : Bool} (hx : options.value key = .boolean x) (hy : line.native.value key = .boolean y) : x = y :=
    Value.boolean.inj (hx.symm.trans ((hsame key).trans hy))
  have hpath := Value.string.inj (hsame .path)
  have hbaudRate := Nat.cast_injective (R := ℚ) (Number.finite.inj (Value.number.inj (hsame .baudRate)))
  have hdataBits := Nat.cast_injective (R := ℚ) (Number.finite.inj (Value.number.inj (hsame .dataBits)))
  have hstopBits := Value.number.inj (hsame .stopBits)
  have hparity := Value.string.inj (hsame .parity)
  have hlock := hflag .lock rfl rfl
  have hrtscts := hflag .rtscts rfl rfl
  have hxon := hflag .xon rfl rfl
  have hxoff := hflag .xoff rfl rfl
  have hxany := hflag .xany rfl rfl
  have hhupcl := hflag .hupcl rfl rfl
  obtain ⟨path, baudRate, dataBits, stopBits, parity, lock, rtscts, xon, xoff, xany, hupcl⟩ := options
  simp only at hpath hbaudRate hdataBits hstopBits hparity hlock hrtscts hxon hxoff hxany hhupcl
  subst hpath hbaudRate hdataBits hstopBits hparity hlock hrtscts hxon hxoff hxany hhupcl
  rfl

/-! ### The checks of `open` -/

/-- The settings the driver library has. -/
inductive StopBits where
  | one | two
  deriving DecidableEq, Repr

inductive Parity where
  | none | odd | even
  deriving DecidableEq, Repr

inductive FlowControl where
  | none | software | hardware
  deriving DecidableEq, Repr

/-- `SerialPortBuilder`. -/
structure Builder where
  path : String
  baudRate : ℕ
  dataBits : Line.DataBits
  stopBits : StopBits
  parity : Parity
  flowControl : FlowControl
  exclusive : Option Bool := none
  deriving DecidableEq

def invalid (message : String) : IoError := ⟨.invalidInput, message, none⟩

def unsupported (message : String) : IoError := ⟨.unsupported, message, none⟩

def dataBits : ℕ → Except IoError Line.DataBits
  | 5 => .ok .five
  | 6 => .ok .six
  | 7 => .ok .seven
  | 8 => .ok .eight
  | _ => .error (invalid "Invalid dataBits")

def stopBits (number : Number) : Except IoError StopBits :=
  if number = .finite 1 ∨ number = .finite oneAndHalf then .ok .one
  else if number = .finite 2 then .ok .two
  else .error (invalid "Invalid stopBits")

/-- Mark and space parity are none for the driver library. -/
def parity (name : String) : Except IoError Parity :=
  if name = "none" ∨ name = "mark" ∨ name = "space" then .ok .none
  else if name = "odd" then .ok .odd
  else if name = "even" then .ok .even
  else .error (invalid "Invalid parity")

def sticky (options : NativeOptions) : Bool := options.parity = "mark" || options.parity = "space"

/-- `open`, until a device is opened. -/
def builder (platform : Platform) (options : NativeOptions) : Except IoError Builder := do
  let dataBits ← dataBits options.dataBits
  let stopBits ← stopBits options.stopBits
  let parity ← parity options.parity
  -- refused before opening a device can change its state
  check (!(platform.isUnix && options.stopBits = .finite oneAndHalf)) (unsupported "1.5 stop bits requires Windows")
  check (!(platform.isUnix && platform ≠ .linux && sticky options))
    (unsupported "Mark/space parity is not available on this platform")
  check (!(platform = .windows && !options.lock)) (unsupported "Windows requires exclusive serial access")
  check (options.path ≠ "" && !options.path.toList.contains '\x00') (invalid "Invalid device path")
  check (options.baudRate ≠ 0) (invalid "Baud rate must be positive")
  let flowControl := if options.rtscts then FlowControl.hardware else if options.xon then .software else .none
  return { path := options.path, baudRate := options.baudRate, dataBits, stopBits, parity, flowControl,
           exclusive := if platform.isUnix then some options.lock else none }

/-- **What a platform has not.** -/
def Line.refused (platform : Platform) (line : Line) : Option String :=
  if platform.isUnix && line.stopBits = .onePointFive then some "1.5 stop bits requires Windows"
  else if platform.isUnix && platform ≠ .linux && (line.parity = .mark || line.parity = .space) then
    some "Mark/space parity is not available on this platform"
  else if platform = .windows && !line.lock then some "Windows requires exclusive serial access"
  else none

def Line.StopBits.builder : Line.StopBits → Settings.StopBits
  | .one | .onePointFive => .one
  | .two => .two

def Line.Parity.builder : Line.Parity → Settings.Parity
  | .none | .mark | .space => .none
  | .odd => .odd
  | .even => .even

/-- What a device is opened with, for a line. -/
def Line.builder (platform : Platform) (line : Line) : Builder :=
  { path := line.path.1, baudRate := line.baudRate.1, dataBits := line.dataBits, stopBits := line.stopBits.builder,
    parity := line.parity.builder,
    flowControl := if line.rtscts then .hardware else if line.xon then .software else .none,
    exclusive := if platform.isUnix then some line.lock else none }

theorem dataBits_line (bits : Line.DataBits) : dataBits bits.number = .ok bits := by cases bits <;> rfl

theorem stopBits_line (bits : Line.StopBits) : stopBits (.finite bits.number) = .ok bits.builder := by
  cases bits <;> decide

theorem parity_line (parity : Line.Parity) : Settings.parity parity.name = .ok parity.builder := by
  cases parity <;> decide

/-- **The checks of `open` refuse what the platform has not**, and nothing else, of the options of a line. -/
theorem builder_line (platform : Platform) (line : Line) : builder platform line.native =
    (line.refused platform).elim (.ok (line.builder platform)) fun message => .error (unsupported message) := by
  have hhalf : decide (line.native.stopBits = .finite oneAndHalf) = decide (line.stopBits = .onePointFive) := by
    show decide (Number.finite line.stopBits.number = _) = _
    cases line.stopBits <;> decide
  have hsticky : sticky line.native = (line.parity = .mark || line.parity = .space) := by
    show (decide (line.parity.name = "mark") || decide (line.parity.name = "space")) = _
    cases line.parity <;> decide
  have hpath : (decide (line.native.path ≠ "") && !line.native.path.toList.contains '\x00') = true :=
    isPath_iff.2 ⟨line.path, rfl⟩
  have hbaudRate : decide (line.native.baudRate ≠ 0) = true := decide_eq_true line.baudRate.2.1.ne'
  unfold builder
  rw [show dataBits line.native.dataBits = .ok line.dataBits from dataBits_line _,
    show stopBits line.native.stopBits = .ok line.stopBits.builder from stopBits_line _,
    show parity line.native.parity = .ok line.parity.builder from parity_line _, hhalf, hsticky, hpath, hbaudRate]
  unfold Line.refused
  generalize (platform.isUnix && decide (line.stopBits = .onePointFive)) = half
  generalize (platform.isUnix && decide (platform ≠ .linux) &&
    (decide (line.parity = .mark) || decide (line.parity = .space))) = marked
  rw [show line.native.lock = line.lock from rfl]
  generalize (decide (platform = .windows) && !line.lock) = shared
  cases half with
  | true => rfl
  | false =>
    cases marked with
    | true => rfl
    | false => cases shared <;> rfl

theorem builder_refused {platform : Platform} {line : Line} {message : String} (h : line.refused platform = some message) :
    builder platform line.native = .error (unsupported message) := by
  rw [builder_line, h]
  rfl

theorem builder_accepted {platform : Platform} {line : Line} {b : Builder} (h : builder platform line.native = .ok b) :
    line.refused platform = none ∧ b = line.builder platform := by
  rw [builder_line] at h
  cases hhas : line.refused platform with
  | some message =>
    rw [hhas] at h
    cases h
  | none =>
    rw [hhas] at h
    cases h
    exact ⟨rfl, rfl⟩

/-! ### From the caller to the device -/

/-- The first property, as they are checked, that is not right. -/
def FirstWrong (settings : Properties Key) (key : Key) : Prop :=
  ∃ before after, Key.order = before ++ key :: after ∧ key.valid (settings.get key) = false ∧
    ∀ earlier ∈ before, earlier.valid (settings.get earlier) = true

theorem FirstWrong.not_line {settings : Properties Key} {key : Key} (h : FirstWrong settings key) (line : Line) :
    ¬∀ key, settings.get key = line.value key := by
  intro hline
  obtain ⟨before, after, -, hwrong, -⟩ := h
  have hright := valid_iff_line.2 ⟨line, hline⟩ key
  rw [hwrong] at hright
  cases hright

/-- **From the caller to the device.**  Options are refused for the first property that is not right; where there is none, they
are those of one line, and of the native checks only those about what the platform has not can refuse it. -/
theorem options_opened (platform : Platform) (argument : Argument Key) :
    (argument = .other ∧ validateOptions argument = .error "Options must be an object") ∨
    ∃ properties, argument = .object properties ∧
      ((∃ key, FirstWrong (spread defaults properties) key ∧ validateOptions argument = .error key.message ∧
        ∀ line : Line, ¬∀ key, (spread defaults properties).get key = line.value key) ∨
      ∃ line : Line, validateOptions argument = .ok (spread defaults properties) ∧
        (∀ other : Line, (∀ key, (spread defaults properties).get key = other.value key) ↔ other = line) ∧
        ∀ options, Converts (spread defaults properties) options → builder platform options =
          (line.refused platform).elim (.ok (line.builder platform)) fun message => .error (unsupported message)) := by
  cases hvalidate : validateOptions argument with
  | error message =>
    rcases validateOptions_error.1 hvalidate with ⟨rfl, rfl⟩ | ⟨properties, before, key, after, rfl, horder, rfl, hwrong, hright⟩
    · exact .inl ⟨rfl, rfl⟩
    · have hfirst : FirstWrong (spread defaults properties) key := ⟨before, after, horder, hwrong, hright⟩
      exact .inr ⟨properties, rfl, .inl ⟨key, hfirst, rfl, hfirst.not_line⟩⟩
  | ok settings =>
    obtain ⟨properties, rfl, rfl, hvalid⟩ := validateOptions_ok.1 hvalidate
    obtain ⟨line, hline⟩ := valid_iff_line.1 hvalid
    refine .inr ⟨properties, rfl, .inr ⟨line, rfl, fun other => ⟨fun hother => ?_, ?_⟩, fun options hconverts => ?_⟩⟩
    · exact Line.value_injective fun key => (hother key).symm.trans (hline key)
    · rintro rfl
      exact hline
    · rw [hconverts.native hline]
      exact builder_line platform line

end NodeSerialport.Settings
