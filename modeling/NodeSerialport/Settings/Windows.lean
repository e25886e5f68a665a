import NodeSerialport.Lib.Bits
import NodeSerialport.Settings.Control
/-!
# Windows devices

`open` of `src/settings.rs` on Windows, with `src/platform.rs` and `SerialStream::open` of `src/platform/windows.rs`.

* `Com` — the calls of the system and of the driver library; `Com.Lawful` — what they do to a `ComSetup` and to the modem lines;
* `Com.openStream`, `Dcb.configured`, `Com.configure`, `Com.setBaudRate`, `Com.openDevice` — the functions;
* `Dcb.Of` — a `DCB` that says what a line says;
* `com_opened` — a device that is open is set as the line says, with what the driver library had set besides, one that is not was
  given back, and the control calls do what they should.
-/

namespace NodeSerialport.Settings

open Lib (Does Keeps guarded guarded_eq_ok guarded_eq_error bind_eq_ok bind_eq_error pure_eq_ok lift lift_eq_ok lift_eq_error putBits
  getLsbD_putBits)
open Native (IoError)

/-! ### The system -/

/-- `DCB`. -/
structure Dcb where
  baudRate : ℕ
  byteSize : ℕ
  parity : ℕ
  stopBits : ℕ
  bitfield : BitVec 32
  deriving DecidableEq, Repr

/-- `COMMTIMEOUTS`; the other fields are zero. -/
structure CommTimeouts where
  readIntervalTimeout : ℕ
  deriving DecidableEq, Repr

/-- `OpenOptions`. -/
structure OpenOptions where
  read : Bool
  write : Bool
  shareMode : ℕ
  customFlags : ℕ
  deriving DecidableEq, Repr

/-- `FILE_FLAG_OVERLAPPED`. -/
def fileFlagOverlapped : ℕ := 0x40000000

/-- The calls of the system and of the driver library. -/
structure Com (δ : Type) where
  /-- `COMPort::open`. -/
  openPort : Builder → Act δ Unit
  /-- `port.name()`. -/
  name : Act δ (Option String)
  /-- The handles of the device are closed. -/
  drop : δ → δ
  getCommState : Act δ Dcb
  setCommState : Dcb → Act δ Unit
  /-- `OpenOptions::open`. -/
  openFile : OpenOptions → String → Act δ Unit
  setCommTimeouts : CommTimeouts → Act δ Unit
  /-- `try_clone`. -/
  tryClone : Act δ Unit
  /-- `NamedPipeClient::from_raw_handle`. -/
  fromRawHandle : Act δ Unit
  /-- The calls of an open `COMPort`. -/
  port : Control δ

variable {δ : Type}

/-- The path of a device. -/
def devicePath (name : String) : String := if name.toList.head? = some '\\' then name else "\\\\.\\" ++ name

/-- What is asked of the first handle before it is closed. -/
def Com.inspect (com : Com δ) : Act δ (String × Dcb) := do
  match ← com.name with
  | none => throw ⟨.notFound, "Empty device name", none⟩
  | some name => do
    let settings ← com.getCommState
    return (name, settings)

/-- What the second handle is set to. -/
def Com.prepare (com : Com δ) (settings : Dcb) : Act δ Unit := do
  com.setCommState settings
  -- reads wait for a first byte, and end after a gap
  com.setCommTimeouts { readIntervalTimeout := 1 }
  com.tryClone
  com.fromRawHandle

/-- `SerialStream::open`. -/
def Com.openStream (com : Com δ) (builder : Builder) : Act δ Unit := do
  com.openPort builder
  let (name, settings) ← guarded com.drop com.inspect
  modify com.drop
  com.openFile { read := true, write := true, shareMode := 0, customFlags := fileFlagOverlapped } (devicePath name)
  guarded com.drop (com.prepare settings)

/-- What `configure` makes of the settings it finds. -/
def Dcb.configured (options : NativeOptions) (settings : Dcb) : Dcb :=
  let parity :=
    if options.parity = "odd" then 1 else if options.parity = "even" then 2 else if options.parity = "mark" then 3
    else if options.parity = "space" then 4 else 0
  { baudRate := options.baudRate
    byteSize := options.dataBits % 256
    parity := parity
    stopBits := if options.stopBits = .finite oneAndHalf then 1 else if options.stopBits = .finite 2 then 2 else 0
    bitfield := putBits settings.bitfield [(1, parity ≠ 0), (2, options.rtscts), (4, options.hupcl), (5, false),
      (8, options.xon), (9, options.xoff)] }

/-- `configure`. -/
def Com.configure (com : Com δ) (options : NativeOptions) : Act δ Unit := do
  let settings ← com.getCommState
  com.setCommState (settings.configured options)

/-- `set_baud_rate`. -/
def Com.setBaudRate (com : Com δ) (baudRate : ℕ) : Act δ Unit :=
  if baudRate = 0 then throw (invalid "Baud rate must be positive") else com.port.setBaudRate baudRate

/-- `open`, of `src/settings.rs`. -/
def Com.openDevice (com : Com δ) (options : NativeOptions) : Act δ Unit := do
  let builder ← lift (builder .windows options)
  com.openStream builder
  guarded com.drop do
    com.configure options
    com.setBaudRate options.baudRate

/-- The control calls of an open device. -/
def Com.control (com : Com δ) : Control δ := { com.port with setBaudRate := com.setBaudRate }

/-! ### What it does -/

/-- What is seen of a device, but for its modem lines. -/
structure ComSetup where
  isOpen : Bool
  options : OpenOptions
  dcb : Dcb
  timeouts : CommTimeouts
  deriving DecidableEq, Repr

/-- The settings are made, and DTR and RTS may move with them. -/
def Moves (v : Seen ComSetup) (settings : Dcb) (v' : Seen ComSetup) : Prop :=
  v'.setup = { v.setup with dcb := settings } ∧ v'.modem.brk = v.modem.brk

/-- **What the calls do.**  A device that is opened again may have lost its settings. -/
structure Com.Lawful (com : Com δ) (view : δ → Seen ComSetup) : Prop where
  openPort_error : ∀ builder d error d', com.openPort builder d = .error error d' →
    (view d').setup.isOpen = (view d).setup.isOpen
  drop : ∀ d, (view (com.drop d)).setup.isOpen = false
  name : Keeps view com.name
  getCommState : Does view com.getCommState fun v settings v' => v' = v ∧ settings = v.setup.dcb
  setCommState : ∀ settings, Does view (com.setCommState settings) fun v _ v' => Moves v settings v'
  openFile : ∀ options path d d', com.openFile options path d = .ok () d' → (view d').setup.isOpen = true ∧
    (view d').setup.options = options
  openFile_error : ∀ options path d error d', com.openFile options path d = .error error d' →
    (view d').setup.isOpen = (view d).setup.isOpen
  setCommTimeouts : ∀ timeouts, Does view (com.setCommTimeouts timeouts) fun v _ v' => v' = { v with setup.timeouts := timeouts }
  tryClone : Keeps view com.tryClone
  fromRawHandle : Keeps view com.fromRawHandle
  setBaudRate : ∀ rate, Does view (com.port.setBaudRate rate) fun v _ v' => Moves v { v.setup.dcb with baudRate := rate } v'
  baudRate : Does view com.port.baudRate fun v rate v' => v' = v ∧ rate = v.setup.dcb.baudRate
  signals : com.port.toSignals.Lawful view

def Line.StopBits.code : Line.StopBits → ℕ
  | .one => 0
  | .onePointFive => 1
  | .two => 2

def Line.Parity.code : Line.Parity → ℕ
  | .none => 0
  | .odd => 1
  | .even => 2
  | .mark => 3
  | .space => 4

/-- A `DCB` says what a line says; `fDtrControl` raises DTR where the line asks for `hupcl`. -/
structure Dcb.Of (line : Line) (dcb : Dcb) : Prop where
  baudRate : dcb.baudRate = line.baudRate.1
  byteSize : dcb.byteSize = line.dataBits.number
  parity : dcb.parity = line.parity.code
  stopBits : dcb.stopBits = line.stopBits.code
  fParity : dcb.bitfield.getLsbD 1 = decide (line.parity ≠ .none)
  fOutxCtsFlow : dcb.bitfield.getLsbD 2 = line.rtscts
  fDtrControl : dcb.bitfield.getLsbD 4 = line.hupcl ∧ dcb.bitfield.getLsbD 5 = false
  fOutX : dcb.bitfield.getLsbD 8 = line.xon
  fInX : dcb.bitfield.getLsbD 9 = line.xoff

/-- The bits `configure` sets. -/
def Dcb.set : List ℕ := [1, 2, 4, 5, 8, 9]

/-- How a line is set; there is no `xany`. -/
def Dcb.wire (dcb : Dcb) (exclusive : Bool) : Wire :=
  { dataBits := if dcb.byteSize = 5 then .five else if dcb.byteSize = 6 then .six else if dcb.byteSize = 7 then .seven else .eight
    stopBits := if dcb.stopBits = 2 then .two else if dcb.stopBits = 1 then .onePointFive else .one
    parity := if dcb.parity = 1 then .odd else if dcb.parity = 2 then .even else if dcb.parity = 3 then .mark
      else if dcb.parity = 4 then .space else .none
    exclusive := exclusive, rtscts := dcb.bitfield.getLsbD 2, xon := dcb.bitfield.getLsbD 8, xoff := dcb.bitfield.getLsbD 9
    xany := false, hupcl := dcb.bitfield.getLsbD 4 }

def ComSetup.shown (v : ComSetup) : Setup :=
  { isOpen := v.isOpen, wire := v.dcb.wire (v.options.shareMode = 0), rate := v.dcb.baudRate }

/-! ### Control calls -/

variable {com : Com δ} {view : δ → Seen ComSetup}

theorem Com.Lawful.setBaudRate_moves (h : com.Lawful view) (rate : ℕ) :
    Does view (com.setBaudRate rate) fun v _ v' => Moves v { v.setup.dcb with baudRate := rate } v' := by
  unfold Com.setBaudRate
  by_cases hzero : rate = 0
  · rw [if_pos hzero]
    exact .never
  · rw [if_neg hzero]
    exact h.setBaudRate rate

theorem Moves.sets {v v' : Seen ComSetup} {rate : ℕ} (h : Moves v { v.setup.dcb with baudRate := rate } v') :
    Sets true Eq rate (v.map ComSetup.shown) (v'.map ComSetup.shown) := by
  obtain ⟨hsetup, hbrk⟩ := h
  have hshown : (v'.map ComSetup.shown).setup = { (v.map ComSetup.shown).setup with rate := rate } :=
    congrArg ComSetup.shown hsetup
  refine ⟨?_, ?_, ?_, hbrk, fun hstill => by cases hstill⟩
  · rw [hshown]
  · rw [hshown]
  · rw [hshown]

/-- **The control calls of a device do what they should**, but that a new rate may move DTR and RTS. -/
theorem Com.Lawful.control (h : com.Lawful view) : com.control.Lawful true Eq fun d => (view d).map ComSetup.shown where
  signals := h.signals.map _
  setBaudRate rate := (h.setBaudRate_moves rate).shown (Seen.map ComSetup.shown) fun _ _ _ hmoves => hmoves.sets
  baudRate := h.baudRate.shown (Seen.map ComSetup.shown) fun _ _ _ hread =>
    ⟨congrArg (Seen.map ComSetup.shown) hread.1, hread.2⟩

/-! ### Opening -/

theorem Com.Lawful.inspect_ok (h : com.Lawful view) {d d' : δ} {found : String × Dcb} (hok : com.inspect d = .ok found d') :
    found.2 = (view d).setup.dcb := by
  obtain ⟨name, d₁, hname, hrest⟩ := bind_eq_ok.1 hok
  have hsame := (h.name d).1 name d₁ hname
  cases name with
  | none => cases hrest
  | some name =>
    obtain ⟨settings, d₂, hget, hreturn⟩ := bind_eq_ok.1 hrest
    obtain ⟨rfl, -⟩ := pure_eq_ok.1 hreturn
    rw [← hsame]
    exact ((h.getCommState d₁).1 settings d₂ hget).2

theorem Com.Lawful.prepare_ok (h : com.Lawful view) {settings : Dcb} {d d' : δ} (hok : com.prepare settings d = .ok () d') :
    (view d').setup = { (view d).setup with dcb := settings, timeouts := ⟨1⟩ } := by
  obtain ⟨_, d₁, hset, hrest⟩ := bind_eq_ok.1 hok
  obtain ⟨_, d₂, htimeouts, hrest⟩ := bind_eq_ok.1 hrest
  obtain ⟨_, d₃, hclone, hregister⟩ := bind_eq_ok.1 hrest
  obtain ⟨hset, -⟩ := (h.setCommState settings d).1 () d₁ hset
  have htimeouts := (h.setCommTimeouts _ d₁).1 () d₂ htimeouts
  have hclone := (h.tryClone d₂).1 () d₃ hclone
  have hregister := (h.fromRawHandle d₃).1 () d' hregister
  rw [hregister, hclone, htimeouts]
  show { (view d₁).setup with timeouts := ⟨1⟩ } = _
  rw [hset]

/-- **A stream has the settings the driver library made**, and is opened once more, shared with nobody. -/
theorem Com.Lawful.openStream_ok (h : com.Lawful view) {builder : Builder} {d d' : δ}
    (hok : com.openStream builder d = .ok () d') : ∃ d₁ dcb, com.openPort builder d = .ok () d₁ ∧ dcb = (view d₁).setup.dcb ∧
      (view d').setup = { isOpen := true, options := ⟨true, true, 0, fileFlagOverlapped⟩, dcb := dcb, timeouts := ⟨1⟩ } := by
  obtain ⟨_, d₁, hopen, hrest⟩ := bind_eq_ok.1 hok
  obtain ⟨⟨name, settings⟩, d₂, hinspect, hrest⟩ := bind_eq_ok.1 hrest
  obtain ⟨_, d₃, -, hrest⟩ := bind_eq_ok.1 hrest
  obtain ⟨_, d₄, hfile, hprepare⟩ := bind_eq_ok.1 hrest
  obtain ⟨hisOpen, hoptions⟩ := h.openFile _ _ d₃ d₄ hfile
  refine ⟨d₁, settings, hopen, h.inspect_ok (guarded_eq_ok.1 hinspect), ?_⟩
  rw [h.prepare_ok (guarded_eq_ok.1 hprepare)]
  show ComSetup.mk (view d₄).setup.isOpen (view d₄).setup.options settings ⟨1⟩ = _
  rw [hisOpen, hoptions]

theorem Com.Lawful.openStream_error (h : com.Lawful view) {builder : Builder} {d d' : δ} {error : IoError}
    (hclosed : (view d).setup.isOpen = false) (herror : com.openStream builder d = .error error d') :
    (view d').setup.isOpen = false := by
  rcases bind_eq_error.1 herror with hopen | ⟨_, d₁, -, hrest⟩
  · exact (h.openPort_error builder d error d' hopen).trans hclosed
  rcases bind_eq_error.1 hrest with hinspect | ⟨⟨name, settings⟩, d₂, -, hrest⟩
  · obtain ⟨d₂, -, rfl⟩ := guarded_eq_error.1 hinspect
    exact h.drop d₂
  rcases bind_eq_error.1 hrest with hdrop | ⟨_, d₃, hdrop, hrest⟩
  · cases hdrop
  cases hdrop
  rcases bind_eq_error.1 hrest with hfile | ⟨_, d₄, -, hprepare⟩
  · exact (h.openFile_error _ _ _ error d' hfile).trans (h.drop d₂)
  · obtain ⟨d₅, -, rfl⟩ := guarded_eq_error.1 hprepare
    exact h.drop d₅

theorem configured_flag (options : NativeOptions) (settings : Dcb) (i : ℕ) :
    (settings.configured options).bitfield.getLsbD i =
      (List.lookup i [(1, decide ((settings.configured options).parity ≠ 0)), (2, options.rtscts), (4, options.hupcl), (5, false),
        (8, options.xon), (9, options.xoff)]).getD (settings.bitfield.getLsbD i) := by
  refine getLsbD_putBits _ settings.bitfield (fun bit hbit => ?_) ?_ i
  · simp only [List.mem_cons, List.not_mem_nil, or_false] at hbit
    rcases hbit with rfl | rfl | rfl | rfl | rfl | rfl <;> simp
  · show [1, 2, 4, 5, 8, 9].Nodup
    decide

theorem configured_parityCode (line : Line) (settings : Dcb) : (settings.configured line.native).parity = line.parity.code := by
  show (if line.parity.name = "odd" then 1 else if line.parity.name = "even" then 2 else if line.parity.name = "mark" then 3
    else if line.parity.name = "space" then 4 else 0) = line.parity.code
  cases line.parity <;> decide

theorem configured_stopBits (line : Line) (settings : Dcb) :
    (settings.configured line.native).stopBits = line.stopBits.code := by
  show (if Number.finite line.stopBits.number = .finite oneAndHalf then 1 else if Number.finite line.stopBits.number = .finite 2
    then 2 else 0) = line.stopBits.code
  cases line.stopBits <;> decide

theorem configured_byteSize (line : Line) (settings : Dcb) :
    (settings.configured line.native).byteSize = line.dataBits.number := by
  show line.dataBits.number % 256 = line.dataBits.number
  cases line.dataBits <;> rfl

/-- **What is set is what the line says.** -/
theorem configured_of (line : Line) (settings : Dcb) : (settings.configured line.native).Of line where
  baudRate := rfl
  byteSize := configured_byteSize line settings
  parity := configured_parityCode line settings
  stopBits := configured_stopBits line settings
  fParity := by
    refine (configured_flag line.native settings 1).trans ?_
    show decide ((settings.configured line.native).parity ≠ 0) = decide (line.parity ≠ .none)
    rw [configured_parityCode]
    cases line.parity <;> rfl
  fOutxCtsFlow := configured_flag line.native settings 2
  fDtrControl := ⟨configured_flag line.native settings 4, configured_flag line.native settings 5⟩
  fOutX := configured_flag line.native settings 8
  fInX := configured_flag line.native settings 9

theorem configured_other (options : NativeOptions) (settings : Dcb) {i : ℕ} (hother : i ∉ Dcb.set) :
    (settings.configured options).bitfield.getLsbD i = settings.bitfield.getLsbD i := by
  rw [configured_flag]
  simp only [Dcb.set, List.mem_cons, List.not_mem_nil, or_false, not_or] at hother
  obtain ⟨h₁, h₂, h₄, h₅, h₈, h₉⟩ := hother
  simp [List.lookup_cons, beq_false_of_ne, h₁, h₂, h₄, h₅, h₈, h₉]

theorem Com.Lawful.configure_ok (h : com.Lawful view) {options : NativeOptions} {d d' : δ}
    (hok : com.configure options d = .ok () d') :
    (view d').setup = { (view d).setup with dcb := (view d).setup.dcb.configured options } := by
  obtain ⟨settings, d₁, hget, hset⟩ := bind_eq_ok.1 hok
  obtain ⟨hsame, rfl⟩ := (h.getCommState d).1 settings d₁ hget
  obtain ⟨hset, -⟩ := (h.setCommState _ d₁).1 () d' hset
  rw [hset, hsame]

theorem Com.Lawful.openDevice_error (h : com.Lawful view) {options : NativeOptions} {d d' : δ} {error : IoError}
    (hclosed : (view d).setup.isOpen = false) (herror : com.openDevice options d = .error error d') :
    (view d').setup.isOpen = false := by
  rcases bind_eq_error.1 herror with hchecks | ⟨b, d₁, hchecks, hrest⟩
  · obtain ⟨-, rfl⟩ := lift_eq_error.1 hchecks
    exact hclosed
  · obtain ⟨-, rfl⟩ := lift_eq_ok.1 hchecks
    rcases bind_eq_error.1 hrest with hopen | ⟨_, d₂, -, hset⟩
    · exact h.openStream_error hclosed hopen
    · obtain ⟨d₃, -, rfl⟩ := guarded_eq_error.1 hset
      exact h.drop d₃

/-- A device that is open, as `com_opened` has it; `before` is what the driver library made of it. -/
structure ComOpened (line : Line) (before : Dcb) (v : ComSetup) : Prop where
  has : line.refused .windows = none
  isOpen : v.isOpen = true
  options : v.options = { read := true, write := true, shareMode := 0, customFlags := fileFlagOverlapped }
  timeouts : v.timeouts = ⟨1⟩
  dcb : v.dcb.Of line
  other : ∀ i ∉ Dcb.set, v.dcb.bitfield.getLsbD i = before.bitfield.getLsbD i

/-- **A device that is open is set as the line says.** -/
theorem Com.Lawful.openDevice_ok (h : com.Lawful view) {line : Line} {d d' : δ} (hok : com.openDevice line.native d = .ok () d') :
    ∃ d₁, com.openPort (line.builder .windows) d = .ok () d₁ ∧ ComOpened line (view d₁).setup.dcb (view d').setup := by
  obtain ⟨b, d₁, hchecks, hrest⟩ := bind_eq_ok.1 hok
  obtain ⟨hbuilder, rfl⟩ := lift_eq_ok.1 hchecks
  obtain ⟨_, d₂, hopen, hrest⟩ := bind_eq_ok.1 hrest
  obtain ⟨_, d₃, hconfigure, hset⟩ := bind_eq_ok.1 (guarded_eq_ok.1 hrest)
  obtain ⟨hhas, rfl⟩ := builder_accepted hbuilder
  obtain ⟨d₀, dcb, hport, rfl, hview₂⟩ := h.openStream_ok hopen
  have hview₃ := h.configure_ok hconfigure
  obtain ⟨hview, -⟩ := (h.setBaudRate_moves _ d₃).1 () d' hset
  -- the rate is set once more, to what it is
  have hlast : (view d').setup = { (view d₂).setup with dcb := (view d₂).setup.dcb.configured line.native } := by
    rw [hview, hview₃]
    rfl
  refine ⟨d₀, hport, hhas, ?_, ?_, ?_, ?_, fun i hi => ?_⟩
  · rw [hlast, hview₂]
  · rw [hlast, hview₂]
  · rw [hlast, hview₂]
  · rw [hlast]
    exact configured_of line _
  · rw [hlast, hview₂]
    exact configured_other line.native _ hi

/-- **A Windows device.**  What the platform has not is refused before the device is touched; a device that could not be opened or
set is given back; one that is open is shared with nobody and set as the line says, its other flags as the driver library made
them; and its control calls do what they should. -/
theorem com_opened (h : com.Lawful view) (line : Line) {d : δ} (hclosed : (view d).setup.isOpen = false) :
    (∀ message, line.refused .windows = some message → com.openDevice line.native d = .error (unsupported message) d) ∧
    (∀ error d', com.openDevice line.native d = .error error d' → (view d').setup.isOpen = false) ∧
    (∀ d', com.openDevice line.native d = .ok () d' →
      ∃ d₁, com.openPort (line.builder .windows) d = .ok () d₁ ∧ ComOpened line (view d₁).setup.dcb (view d').setup) ∧
    com.control.Lawful true Eq fun d => (view d).map ComSetup.shown := by
  refine ⟨fun message hrefused => ?_, fun error d' => h.openDevice_error hclosed, fun d' => h.openDevice_ok, h.control⟩
  show (lift (builder .windows line.native) >>= _ : Act δ Unit) d = _
  rw [builder_refused hrefused]
  rfl

/-- What `COMPort::open` makes of a `DCB`. -/
def Dcb.made (builder : Builder) (dcb : Dcb) : Dcb :=
  let hardware : Bool := builder.flowControl = .hardware
  let software : Bool := builder.flowControl = .software
  { baudRate := builder.baudRate
    byteSize := builder.dataBits.number
    parity := match builder.parity with
      | .none => 0
      | .odd => 1
      | .even => 2
    stopBits := if builder.stopBits = .two then 2 else 0
    bitfield := putBits dcb.bitfield [(0, true), (1, builder.parity ≠ .none), (2, hardware), (3, false), (4, false), (5, false),
      (6, false), (8, software), (9, software), (10, false), (11, false), (12, hardware), (13, false), (14, false)] }

/-- A port that forgets its settings where it is closed, and whose DTR follows them. -/
def com3 : Com (Seen ComSetup) where
  openPort builder := fun v => .ok () { v with setup.isOpen := true, setup.dcb := v.setup.dcb.made builder }
  name := fun v => .ok (some "COM3") v
  drop v := { v with setup.isOpen := false }
  getCommState := fun v => .ok v.setup.dcb v
  setCommState settings := fun v => .ok () { v with setup.dcb := settings, modem.dtr := settings.bitfield.getLsbD 4 }
  openFile options _ := fun v => .ok () { v with
    setup.isOpen := true, setup.options := options
    setup.dcb := { baudRate := 1200, byteSize := 7, parity := 0, stopBits := 0, bitfield := 0 } }
  setCommTimeouts timeouts := fun v => .ok () { v with setup.timeouts := timeouts }
  tryClone := fun v => .ok () v
  fromRawHandle := fun v => .ok () v
  port :=
    { setBaudRate := fun rate v =>
        .ok () { v with setup.dcb.baudRate := rate, modem.dtr := v.setup.dcb.bitfield.getLsbD 4 }
      baudRate := fun v => .ok v.setup.dcb.baudRate v
      writeDataTerminalReady := fun value v => .ok () { v with modem.dtr := value }
      writeRequestToSend := fun value v => .ok () { v with modem.rts := value }
      setBreak := fun v => .ok () { v with modem.brk := true }
      clearBreak := fun v => .ok () { v with modem.brk := false }
      readClearToSend := fun v => .ok true v
      readDataSetReady := fun v => .ok true v
      readCarrierDetect := fun v => .ok false v
      clear := fun v => .ok () v }

theorem com3_lawful : com3.Lawful id where
  openPort_error _ _ _ _ h := by cases h
  drop _ := rfl
  name := .always fun _ => rfl
  getCommState := .always fun _ => ⟨rfl, rfl⟩
  setCommState _ := .always fun _ => ⟨rfl, rfl⟩
  openFile _ _ _ _ h := by
    cases h
    exact ⟨rfl, rfl⟩
  openFile_error _ _ _ _ _ h := by cases h
  setCommTimeouts _ := .always fun _ => rfl
  tryClone := .always fun _ => rfl
  fromRawHandle := .always fun _ => rfl
  setBaudRate _ := .always fun _ => ⟨rfl, rfl⟩
  baudRate := .always fun _ => ⟨rfl, rfl⟩
  signals :=
    { writeDataTerminalReady := fun _ => .always fun _ => rfl
      writeRequestToSend := fun _ => .always fun _ => rfl
      setBreak := .always fun _ => rfl
      clearBreak := .always fun _ => rfl
      readClearToSend := .always fun _ => rfl
      readDataSetReady := .always fun _ => rfl
      readCarrierDetect := .always fun _ => rfl
      clear := .always fun _ => rfl }

/-- 45450 baud, five bits, mark parity, one and a half stop bits. -/
def teletype : Line :=
  { path := ⟨"COM3", by decide⟩, baudRate := ⟨45450, by decide⟩, dataBits := .five, stopBits := .onePointFive, parity := .mark
    lock := true, rtscts := true, xon := false, xoff := true, xany := false, hupcl := false }

/-- A port that nobody has open. -/
def closedPort : Seen ComSetup where
  setup :=
    { isOpen := false, options := ⟨false, false, 0, 0⟩, timeouts := ⟨0⟩
      dcb := { baudRate := 1200, byteSize := 7, parity := 0, stopBits := 0, bitfield := 0 } }
  modem := { dtr := false, rts := false, brk := false }

/-- `fBinary`, which the driver library sets, is still set. -/
theorem com_opened_teletype : ∃ v, com3.openDevice teletype.native closedPort = .ok () v ∧ v.setup.dcb.Of teletype ∧
    v.setup.dcb.bitfield.getLsbD 0 = true ∧ com3.control.Lawful true Eq (Seen.map ComSetup.shown) :=
  have hopened := com_opened com3_lawful teletype (d := closedPort) rfl
  have hok : com3.openDevice teletype.native closedPort = .ok () _ := rfl
  have hset := hopened.2.2.1 _ hok
  ⟨_, hok, by
    obtain ⟨v, -, hv⟩ := hset
    exact hv.dcb, by
    obtain ⟨v, hport, hv⟩ := hset
    cases hport
    exact hv.other 0 (by decide), hopened.2.2.2⟩

end NodeSerialport.Settings
