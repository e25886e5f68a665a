import NodeSerialport.Settings.Control
/-!
# Unix devices

`open` of `src/settings.rs` on Unix, with `src/platform.rs` and `SerialStream::open` of `src/platform/unix.rs`.

* `Tty` — the calls of the system and of the driver library;
* `Tty.openStream`, `Tty.openPlatform`, `Tty.configure`, `Tty.setBaudRate`, `Tty.baudRate`, `Tty.openDevice` — the functions;
* `Tty.Lawful` — what the calls do to a `TtySetup`: one that succeeds may have done some of what it was asked only; `Tty.Exact` —
  where it did all of it;
* `device_opened` — a device that is open is nonblocking and raw, and set as the line says if its calls are exact; one that is not
  was given back; and the control calls do what they should.
-/

namespace NodeSerialport.Settings

open Lib (Does Keeps guarded guarded_eq_ok guarded_eq_error bind_eq_ok bind_eq_error pure_eq_ok lift lift_eq_ok lift_eq_error)
open Native (IoError)

/-! ### The system -/

structure Termios where
  ixon : Bool
  ixoff : Bool
  ixany : Bool
  csize : Line.DataBits
  cstopb : Bool
  parenb : Bool
  parodd : Bool
  cmspar : Bool
  crtscts : Bool
  hupcl : Bool
  /-- Neither `ICANON` nor `ECHO`. -/
  raw : Bool
  speed : ℕ
  deriving DecidableEq, Repr

/-- The calls of the system and of the driver library. -/
structure Tty (δ : Type) where
  /-- `TTYPort::open`. -/
  openPort : Builder → Act δ Unit
  /-- `drop`, of a `TTYPort`. -/
  drop : δ → δ
  /-- `fcntl`. -/
  getFlags : Act δ ℕ
  setFlags : ℕ → Act δ Unit
  oNonblock : ℕ
  /-- `AsyncFd::register`. -/
  register : Act δ Unit
  tcgetattr : Act δ Termios
  tcsetattr : Termios → Act δ Unit
  cfsetspeed : Termios → ℕ → Except IoError Termios
  /-- `Errno::ENOTTY.desc()`. -/
  enotty : String
  /-- The calls of an open `TTYPort`. -/
  port : Control δ

variable {δ : Type}

/-- `SerialStream::open`. -/
def Tty.openStream (tty : Tty δ) (builder : Builder) : Act δ Unit := do
  tty.openPort builder
  guarded tty.drop do
    let flags ← tty.getFlags
    tty.setFlags (flags ||| tty.oNonblock)
    tty.register

/-- `platform::open`. -/
def Tty.openPlatform (tty : Tty δ) (platform : Platform) (builder : Builder) : Act δ Unit := fun d =>
  match tty.openStream builder d with
  | .ok _ d => .ok () d
  | .error error d =>
    -- a PTY of macOS has no speed of its own: it gets a POSIX one afterwards
    if platform = .macos ∧ error.message = tty.enotty then tty.openStream { builder with baudRate := 0 } d
    else .error error d

/-- What `configure` makes of the settings it finds. -/
def configured (platform : Platform) (options : NativeOptions) (settings : Termios) : Termios :=
  let settings := { settings with ixon := options.xon, ixoff := options.xoff, ixany := options.xany, hupcl := options.hupcl }
  if platform = .linux then
    let settings := { settings with cmspar := sticky options }
    if sticky options then { settings with parenb := true, parodd := options.parity = "mark" } else settings
  else settings

/-- `configure`. -/
def Tty.configure (tty : Tty δ) (platform : Platform) (options : NativeOptions) : Act δ Unit := do
  let settings ← tty.tcgetattr
  tty.tcsetattr (configured platform options settings)

/-- `set_baud_rate`. -/
def Tty.setBaudRate (tty : Tty δ) (platform : Platform) (baudRate : ℕ) : Act δ Unit :=
  if baudRate = 0 then throw (invalid "Baud rate must be positive")
  else if platform = .macos then do
    let current ← tty.port.baudRate
    if current = 0 then do
      let settings ← tty.tcgetattr
      let settings ← lift (tty.cfsetspeed settings baudRate)
      tty.tcsetattr settings
    else tty.port.setBaudRate baudRate
  else tty.port.setBaudRate baudRate

/-- `baud_rate`. -/
def Tty.baudRate (tty : Tty δ) (platform : Platform) : Act δ ℕ := do
  let baudRate ← tty.port.baudRate
  if platform = .macos ∧ baudRate = 0 then do
    let settings ← tty.tcgetattr
    return settings.speed
  else return baudRate

/-- `open`, of `src/settings.rs`. -/
def Tty.openDevice (tty : Tty δ) (platform : Platform) (options : NativeOptions) : Act δ Unit := do
  let builder ← lift (builder platform options)
  tty.openPlatform platform builder
  guarded tty.drop do
    tty.configure platform options
    -- what `configure` set may have changed a speed of its own
    tty.setBaudRate platform options.baudRate

/-- The control calls of an open device. -/
def Tty.control (tty : Tty δ) (platform : Platform) : Control δ :=
  { tty.port with setBaudRate := tty.setBaudRate platform, baudRate := tty.baudRate platform }

/-! ### What it does -/

/-- What is seen of a device, but for its modem lines. -/
structure TtySetup where
  isOpen : Bool
  exclusive : Bool
  flags : ℕ
  termios : Termios
  /-- The speed the driver library knows; on macOS zero where there is a POSIX speed only. -/
  custom : ℕ
  deriving DecidableEq, Repr

/-- Each setting is as it was, or as it was asked for. -/
structure Termios.Partly (old asked now : Termios) : Prop where
  ixon : now.ixon = old.ixon ∨ now.ixon = asked.ixon
  ixoff : now.ixoff = old.ixoff ∨ now.ixoff = asked.ixoff
  ixany : now.ixany = old.ixany ∨ now.ixany = asked.ixany
  csize : now.csize = old.csize ∨ now.csize = asked.csize
  cstopb : now.cstopb = old.cstopb ∨ now.cstopb = asked.cstopb
  parenb : now.parenb = old.parenb ∨ now.parenb = asked.parenb
  parodd : now.parodd = old.parodd ∨ now.parodd = asked.parodd
  cmspar : now.cmspar = old.cmspar ∨ now.cmspar = asked.cmspar
  crtscts : now.crtscts = old.crtscts ∨ now.crtscts = asked.crtscts
  hupcl : now.hupcl = old.hupcl ∨ now.hupcl = asked.hupcl
  raw : now.raw = old.raw ∨ now.raw = asked.raw

theorem Termios.Partly.all (old asked : Termios) : Partly old asked asked :=
  ⟨.inr rfl, .inr rfl, .inr rfl, .inr rfl, .inr rfl, .inr rfl, .inr rfl, .inr rfl, .inr rfl, .inr rfl, .inr rfl⟩

theorem Termios.Partly.same {old now : Termios} {speed : ℕ} (h : Partly old { old with speed := speed } now) :
    now = { old with speed := now.speed } := by
  obtain ⟨h₁, h₂, h₃, h₄, h₅, h₆, h₇, h₈, h₉, h₁₀, h₁₁⟩ := h
  simp only [or_self] at h₁ h₂ h₃ h₄ h₅ h₆ h₇ h₈ h₉ h₁₀ h₁₁
  cases now
  simp only [Termios.mk.injEq]
  exact ⟨h₁, h₂, h₃, h₄, h₅, h₆, h₇, h₈, h₉, h₁₀, h₁₁, trivial⟩

/-- What `TTYPort::open` asks for. -/
structure Asked (builder : Builder) (settings : Termios) : Prop where
  csize : settings.csize = builder.dataBits
  cstopb : settings.cstopb = decide (builder.stopBits = .two)
  parenb : settings.parenb = decide (builder.parity ≠ .none)
  parodd : settings.parodd = decide (builder.parity = .odd)
  crtscts : settings.crtscts = decide (builder.flowControl = .hardware)

/-- **What the calls do.**  A call that succeeds may have done some of what it was asked only; a line that is asked for a speed has
one the driver `gives` for it.  Setting a `Termios` may change the speed the driver library knows, but not on macOS, where it
keeps that itself; that a port is raw is confirmed. -/
structure Tty.Lawful (tty : Tty δ) (platform : Platform) (gives : ℕ → ℕ → Prop) (view : δ → Seen TtySetup) : Prop where
  openPort : ∀ builder d d', tty.openPort builder d = .ok () d' → (view d').setup.isOpen = true ∧
    (view d').setup.termios.raw = true ∧ ∀ exclusive, builder.exclusive = some exclusive → (view d').setup.exclusive = exclusive
  openPort_error : ∀ builder d error d', tty.openPort builder d = .error error d' →
    (view d').setup.isOpen = (view d).setup.isOpen
  drop : ∀ d, (view (tty.drop d)).setup.isOpen = false
  getFlags : Does view tty.getFlags fun v flags v' => v' = v ∧ flags = v.setup.flags
  setFlags : ∀ flags, Does view (tty.setFlags flags) fun v _ v' => v' = { v with setup.flags := flags }
  register : Keeps view tty.register
  tcgetattr : Does view tty.tcgetattr fun v settings v' => v' = v ∧ settings = v.setup.termios
  tcsetattr : ∀ asked, Does view (tty.tcsetattr asked) fun v _ v' =>
    ∃ now custom, v' = { v with setup.termios := now, setup.custom := custom } ∧ Termios.Partly v.setup.termios asked now ∧
      gives asked.speed now.speed ∧ (platform = .macos → custom = v.setup.custom)
  cfsetspeed : ∀ settings speed settings', tty.cfsetspeed settings speed = .ok settings' →
    settings' = { settings with speed := speed }
  setBaudRate : ∀ rate, Does view (tty.port.setBaudRate rate) fun v _ v' =>
    ∃ custom speed, v' = { v with setup.custom := custom, setup.termios.speed := speed } ∧ gives rate custom ∧
      (platform = .macos → custom = rate)
  baudRate : Does view tty.port.baudRate fun v rate v' => v' = v ∧ rate = v.setup.custom
  signals : tty.port.toSignals.Lawful view

/-- **A call that succeeds did all it was asked.** -/
structure Tty.Exact (tty : Tty δ) (view : δ → Seen TtySetup) : Prop where
  openPort : ∀ builder d d', tty.openPort builder d = .ok () d' → Asked builder (view d').setup.termios
  tcsetattr : ∀ settings d d', tty.tcsetattr settings d = .ok () d' → (view d').setup.termios = settings

/-- The parity of a line that is set so. -/
def Termios.parity (settings : Termios) (platform : Platform) : Line.Parity :=
  if settings.parenb then
    if platform = .linux ∧ settings.cmspar then (if settings.parodd then .mark else .space)
    else if settings.parodd then .odd else .even
  else .none

/-- How a line is set. -/
def TtySetup.wire (v : TtySetup) (platform : Platform) : Wire :=
  { dataBits := v.termios.csize, stopBits := if v.termios.cstopb then .two else .one, parity := v.termios.parity platform,
    exclusive := v.exclusive, rtscts := v.termios.crtscts, xon := v.termios.ixon, xoff := v.termios.ixoff,
    xany := v.termios.ixany, hupcl := v.termios.hupcl }

/-- The speed of a line. -/
def TtySetup.rate (v : TtySetup) (platform : Platform) : ℕ :=
  if platform = .macos ∧ v.custom = 0 then v.termios.speed else v.custom

def TtySetup.shown (platform : Platform) (v : TtySetup) : Setup :=
  { isOpen := v.isOpen, wire := v.wire platform, rate := v.rate platform }

/-- How a line should be set. -/
def Line.wire (line : Line) : Wire :=
  { dataBits := line.dataBits, stopBits := line.stopBits, parity := line.parity, exclusive := line.lock, rtscts := line.rtscts,
    xon := line.xon, xoff := line.xoff, xany := line.xany, hupcl := line.hupcl }

/-! ### Control calls -/

variable {tty : Tty δ} {platform : Platform} {gives : ℕ → ℕ → Prop} {view : δ → Seen TtySetup}

/-- What a change of the speed changes. -/
structure Rated (platform : Platform) (gives : ℕ → ℕ → Prop) (rate : ℕ) (v v' : Seen TtySetup) : Prop where
  rest : ∃ custom speed, v' = { v with setup.custom := custom, setup.termios.speed := speed }
  rate : gives rate (v'.setup.rate platform)

theorem Rated.sets {rate : ℕ} {v v' : Seen TtySetup} (h : Rated platform gives rate v v') :
    Sets false gives rate (v.map (TtySetup.shown platform)) (v'.map (TtySetup.shown platform)) := by
  obtain ⟨⟨custom, speed, rfl⟩, hrate⟩ := h
  exact ⟨rfl, rfl, hrate, rfl, fun _ => rfl⟩

theorem Tty.Lawful.setBaudRate_rated (h : tty.Lawful platform gives view) (rate : ℕ) :
    Does view (tty.setBaudRate platform rate) fun v _ v' => Rated platform gives rate v v' := by
  unfold Tty.setBaudRate
  by_cases hzero : rate = 0
  · rw [if_pos hzero]
    exact .never
  have hplain : Does view (tty.port.setBaudRate rate) fun v _ v' => Rated platform gives rate v v' := by
    refine (h.setBaudRate rate).mono ?_
    rintro v - v' ⟨custom, speed, rfl, hgives, hmacos⟩
    refine ⟨⟨custom, speed, rfl⟩, ?_⟩
    show gives rate (if platform = .macos ∧ custom = 0 then speed else custom)
    rw [if_neg]
    · exact hgives
    · rintro ⟨hplatform, hcustom⟩
      exact hzero ((hmacos hplatform).symm.trans hcustom)
  rw [if_neg hzero]
  by_cases hmacos : platform = .macos
  · rw [if_pos hmacos]
    refine h.baudRate.after fun current => ?_
    by_cases hcurrent : current = 0
    · rw [if_pos hcurrent]
      refine h.tcgetattr.after fun settings => ?_
      refine (Does.lift (tty.cfsetspeed settings rate)).after (P := fun _ _ => _) fun settings' => ?_
      refine (h.tcsetattr settings').mono ?_
      rintro v - v' ⟨now, custom, rfl, hpartly, hgives, hkept⟩ hspeed rfl hknown
      have hsettings := h.cfsetspeed _ _ _ hspeed
      have hcustom : custom = 0 := (hkept hmacos).trans (hknown.symm.trans hcurrent)
      rw [hsettings] at hpartly hgives
      have hrest := congrArg (fun termios => { v with setup.termios := termios, setup.custom := custom }) hpartly.same
      refine ⟨⟨custom, now.speed, hrest⟩, ?_⟩
      show gives rate (if platform = .macos ∧ custom = 0 then now.speed else custom)
      rw [if_pos ⟨hmacos, hcustom⟩]
      exact hgives
    · rw [if_neg hcurrent]
      exact hplain.mono fun _ _ _ hrated _ => hrated
  · rw [if_neg hmacos]
    exact hplain

theorem Tty.Lawful.baudRate_rate (h : tty.Lawful platform gives view) :
    Does view (tty.baudRate platform) fun v rate v' => v' = v ∧ rate = v.setup.rate platform := by
  unfold Tty.baudRate
  have hpure (rate : ℕ) : Does view (pure rate : Act δ ℕ) fun v a v' => v' = v ∧ a = rate := by
    refine fun d => ⟨fun a d' hok => ?_, fun e d' herror => ?_⟩
    · obtain ⟨rfl, rfl⟩ := pure_eq_ok.1 hok
      exact ⟨rfl, rfl⟩
    · cases herror
  refine h.baudRate.after fun current => ?_
  by_cases hposix : platform = .macos ∧ current = 0
  · rw [if_pos hposix]
    refine h.tcgetattr.after fun settings => (hpure _).mono ?_
    rintro v rate v' ⟨rfl, rfl⟩ rfl hknown
    rw [hknown] at hposix
    exact ⟨rfl, (if_pos hposix).symm⟩
  · rw [if_neg hposix]
    refine (hpure _).mono ?_
    rintro v rate v' ⟨rfl, rfl⟩ hknown
    rw [hknown] at hposix ⊢
    exact ⟨rfl, (if_neg hposix).symm⟩

/-- **The control calls of a device do what they should.** -/
theorem Tty.Lawful.control (h : tty.Lawful platform gives view) :
    (tty.control platform).Lawful false gives fun d => (view d).map (TtySetup.shown platform) where
  signals := h.signals.map _
  setBaudRate rate := (h.setBaudRate_rated rate).shown (Seen.map (TtySetup.shown platform)) fun _ _ _ hrated => hrated.sets
  baudRate := h.baudRate_rate.shown (Seen.map (TtySetup.shown platform)) fun _ _ _ hread =>
    ⟨congrArg (Seen.map (TtySetup.shown platform)) hread.1, hread.2⟩

/-! ### Opening -/

theorem Tty.Lawful.openStream_ok (h : tty.Lawful platform gives view) {builder : Builder} {d d' : δ}
    (hok : tty.openStream builder d = .ok () d') :
    ∃ d₁, tty.openPort builder d = .ok () d₁ ∧
      view d' = { view d₁ with setup.flags := (view d₁).setup.flags ||| tty.oNonblock } := by
  obtain ⟨_, d₁, hopen, hrest⟩ := bind_eq_ok.1 hok
  obtain ⟨flags, d₂, hget, hrest⟩ := bind_eq_ok.1 (guarded_eq_ok.1 hrest)
  obtain ⟨_, d₃, hset, hregister⟩ := bind_eq_ok.1 hrest
  obtain ⟨hsame, rfl⟩ := (h.getFlags d₁).1 flags d₂ hget
  have hflags := (h.setFlags _ d₂).1 () d₃ hset
  have hregistered := (h.register d₃).1 () d' hregister
  refine ⟨d₁, hopen, ?_⟩
  rw [hregistered, hflags, hsame]

theorem Tty.Lawful.openStream_error (h : tty.Lawful platform gives view) {builder : Builder} {d d' : δ} {error : IoError}
    (hclosed : (view d).setup.isOpen = false) (herror : tty.openStream builder d = .error error d') :
    (view d').setup.isOpen = false := by
  rcases bind_eq_error.1 herror with hopen | ⟨_, d₁, -, hrest⟩
  · exact (h.openPort_error builder d error d' hopen).trans hclosed
  · obtain ⟨d₂, -, rfl⟩ := guarded_eq_error.1 hrest
    exact h.drop d₂

/-- A speed of macOS is left for afterwards, where there is no other way. -/
theorem Tty.Lawful.openPlatform_ok (h : tty.Lawful platform gives view) {builder : Builder} {d d' : δ}
    (hok : tty.openPlatform platform builder d = .ok () d') :
    ∃ rate d₀ d₁, tty.openPort { builder with baudRate := rate } d₀ = .ok () d₁ ∧
      view d' = { view d₁ with setup.flags := (view d₁).setup.flags ||| tty.oNonblock } := by
  unfold Tty.openPlatform at hok
  cases hopened : tty.openStream builder d with
  | ok a d₁ =>
    rw [hopened] at hok
    cases hok
    obtain ⟨d₁, hport, hview⟩ := h.openStream_ok hopened
    exact ⟨builder.baudRate, d, d₁, hport, hview⟩
  | error error d₁ =>
    rw [hopened] at hok
    simp only at hok
    split at hok
    · obtain ⟨d₂, hport, hview⟩ := h.openStream_ok hok
      exact ⟨0, d₁, d₂, hport, hview⟩
    · cases hok

theorem Tty.Lawful.openPlatform_error (h : tty.Lawful platform gives view) {builder : Builder} {d d' : δ} {error : IoError}
    (hclosed : (view d).setup.isOpen = false) (herror : tty.openPlatform platform builder d = .error error d') :
    (view d').setup.isOpen = false := by
  unfold Tty.openPlatform at herror
  cases hopened : tty.openStream builder d with
  | ok a d₁ =>
    rw [hopened] at herror
    cases herror
  | error first d₁ =>
    have hclosed₁ := h.openStream_error hclosed hopened
    rw [hopened] at herror
    simp only at herror
    split at herror
    · exact h.openStream_error hclosed₁ herror
    · cases herror
      exact hclosed₁

theorem Tty.Lawful.configure_ok (h : tty.Lawful platform gives view) {options : NativeOptions} {d d' : δ}
    (hok : tty.configure platform options d = .ok () d') :
    ∃ now custom, view d' = { view d with setup.termios := now, setup.custom := custom } ∧
      Termios.Partly (view d).setup.termios (configured platform options (view d).setup.termios) now ∧
      (tty.Exact view → now = configured platform options (view d).setup.termios) := by
  obtain ⟨settings, d₁, hget, hset⟩ := bind_eq_ok.1 hok
  obtain ⟨hsame, rfl⟩ := (h.tcgetattr d).1 settings d₁ hget
  obtain ⟨now, custom, hview, hpartly, -⟩ := (h.tcsetattr _ d₁).1 () d' hset
  rw [hsame] at hview hpartly
  refine ⟨now, custom, hview, hpartly, fun hexact => ?_⟩
  have hnow := hexact.tcsetattr _ d₁ d' hset
  rw [hview] at hnow
  exact hnow

theorem configured_eq (platform : Platform) (options : NativeOptions) (settings : Termios) :
    configured platform options settings = { settings with
      ixon := options.xon, ixoff := options.xoff, ixany := options.xany, hupcl := options.hupcl
      cmspar := (configured platform options settings).cmspar, parenb := (configured platform options settings).parenb
      parodd := (configured platform options settings).parodd } := by
  unfold configured
  split
  · simp only
    split <;> rfl
  · rfl

theorem sticky_line (line : Line) : sticky line.native = (line.parity = .mark || line.parity = .space) := by
  show (decide (line.parity.name = "mark") || decide (line.parity.name = "space")) = _
  cases line.parity <;> decide

theorem configured_parity {line : Line} {settings : Termios}
    (hhas : platform ≠ .linux → line.parity ≠ .mark ∧ line.parity ≠ .space)
    (hparenb : settings.parenb = decide (line.parity.builder ≠ .none))
    (hparodd : settings.parodd = decide (line.parity.builder = .odd)) :
    (configured platform line.native settings).parity platform = line.parity := by
  have hname : line.native.parity = line.parity.name := rfl
  have hsticky := sticky_line line
  unfold configured Termios.parity
  rw [hsticky, hname]
  by_cases hlinux : platform = .linux
  · cases hparity : line.parity <;>
      simp [hlinux, hparity, hparenb, hparodd, Line.Parity.builder, Line.Parity.name]
  · obtain ⟨hmark, hspace⟩ := hhas hlinux
    cases hparity : line.parity with
    | mark => exact absurd hparity hmark
    | space => exact absurd hparity hspace
    | _ => simp [hlinux, hparity, hparenb, hparodd, Line.Parity.builder]

theorem Line.refused_unix {line : Line} (hunix : platform.isUnix = true) (h : line.refused platform = none) :
    line.stopBits ≠ .onePointFive ∧ (platform ≠ .linux → line.parity ≠ .mark ∧ line.parity ≠ .space) := by
  unfold Line.refused at h
  simp only [hunix, Bool.true_and] at h
  split at h
  · cases h
  · split at h
    · cases h
    · rename_i hhalf hsticky
      simp only [decide_eq_true_eq] at hhalf
      simp only [Bool.and_eq_true, Bool.or_eq_true, decide_eq_true_eq, not_and, not_or] at hsticky
      exact ⟨hhalf, hsticky⟩

/-- **What is set is what the line says**, where the platform has it. -/
theorem configured_wire {line : Line} {v : TtySetup} {rate : ℕ} (hunix : platform.isUnix = true)
    (hhas : line.refused platform = none) (hexclusive : v.exclusive = line.lock)
    (hv : Asked { line.builder platform with baudRate := rate } v.termios) :
    TtySetup.wire { v with termios := configured platform line.native v.termios } platform = line.wire := by
  obtain ⟨hhalf, hsticky⟩ := line.refused_unix hunix hhas
  have hparity := configured_parity hsticky hv.parenb hv.parodd
  have hcsize : v.termios.csize = line.dataBits := hv.csize
  have hstop : (if v.termios.cstopb then Line.StopBits.two else .one) = line.stopBits := by
    rw [hv.cstopb]
    show (if decide (line.stopBits.builder = .two) then Line.StopBits.two else .one) = line.stopBits
    cases hbits : line.stopBits with
    | onePointFive => exact absurd hbits hhalf
    | _ => rfl
  have hflow : v.termios.crtscts = line.rtscts := by
    rw [hv.crtscts]
    show decide ((if line.rtscts then FlowControl.hardware else if line.xon then .software else .none) = .hardware) = line.rtscts
    cases line.rtscts <;> cases line.xon <;> rfl
  unfold TtySetup.wire Line.wire
  rw [hparity, configured_eq]
  simp only [hexclusive, hcsize, hstop, hflow]
  rfl

theorem Tty.Lawful.openDevice_error (h : tty.Lawful platform gives view) {options : NativeOptions} {d d' : δ} {error : IoError}
    (hclosed : (view d).setup.isOpen = false) (herror : tty.openDevice platform options d = .error error d') :
    (view d').setup.isOpen = false := by
  rcases bind_eq_error.1 herror with hchecks | ⟨b, d₁, hchecks, hrest⟩
  · obtain ⟨-, rfl⟩ := lift_eq_error.1 hchecks
    exact hclosed
  · obtain ⟨-, rfl⟩ := lift_eq_ok.1 hchecks
    rcases bind_eq_error.1 hrest with hopen | ⟨_, d₂, -, hset⟩
    · exact h.openPlatform_error hclosed hopen
    · obtain ⟨d₃, -, rfl⟩ := guarded_eq_error.1 hset
      exact h.drop d₃

/-- A device that is open, as `device_opened` has it. -/
structure TtyOpened (tty : Tty δ) (platform : Platform) (gives : ℕ → ℕ → Prop) (view : δ → Seen TtySetup) (line : Line)
    (v : TtySetup) : Prop where
  has : line.refused platform = none
  isOpen : v.isOpen = true
  exclusive : v.exclusive = line.lock
  nonblocking : v.flags &&& tty.oNonblock = tty.oNonblock
  raw : v.termios.raw = true
  rate : gives line.baudRate.1 (v.rate platform)
  wire : tty.Exact view → v.wire platform = line.wire

/-- **A device that is open is set as the line says**, if its calls are exact. -/
theorem Tty.Lawful.openDevice_ok (h : tty.Lawful platform gives view) (hunix : platform.isUnix = true) {line : Line} {d d' : δ}
    (hok : tty.openDevice platform line.native d = .ok () d') : TtyOpened tty platform gives view line (view d').setup := by
  obtain ⟨b, d₁, hchecks, hrest⟩ := bind_eq_ok.1 hok
  obtain ⟨hbuilder, rfl⟩ := lift_eq_ok.1 hchecks
  obtain ⟨_, d₂, hopen, hrest⟩ := bind_eq_ok.1 hrest
  obtain ⟨_, d₃, hconfigure, hset⟩ := bind_eq_ok.1 (guarded_eq_ok.1 hrest)
  obtain ⟨hhas, rfl⟩ := builder_accepted hbuilder
  obtain ⟨rate, d₀, d₁, hport, hview₂⟩ := h.openPlatform_ok hopen
  obtain ⟨hisOpen, hraw, hlock⟩ := h.openPort _ d₀ d₁ hport
  have hexclusive : (view d₁).setup.exclusive = line.lock := hlock line.lock (if_pos hunix)
  obtain ⟨now, custom, hview₃, hpartly, hnow⟩ := h.configure_ok hconfigure
  obtain ⟨⟨custom', speed, hview⟩, hrate⟩ := (h.setBaudRate_rated _ d₃).1 () d' hset
  refine ⟨hhas, ?_, ?_, ?_, ?_, hrate, fun hexact => ?_⟩
  · rw [hview, hview₃, hview₂]
    exact hisOpen
  · rw [hview, hview₃, hview₂]
    exact hexclusive
  · rw [hview, hview₃, hview₂]
    show ((view d₁).setup.flags ||| tty.oNonblock) &&& tty.oNonblock = tty.oNonblock
    refine Nat.eq_of_testBit_eq fun i => ?_
    rw [Nat.testBit_and, Nat.testBit_or]
    cases tty.oNonblock.testBit i <;> simp
  · have hkept := hpartly.raw
    rw [configured_eq, hview₂] at hkept
    rw [hview, hview₃]
    exact hkept.elim (·.trans hraw) (·.trans hraw)
  · rw [hview, hview₃, hnow hexact, hview₂, ← configured_wire hunix hhas hexclusive (hexact.openPort _ d₀ d₁ hport)]
    rfl

/-- **A Unix device.**  What the platform has not is refused before the device is touched; a device that could not be opened or
set is given back; one that is open is nonblocking, raw and set as the line says; and its control calls do what they should. -/
theorem device_opened (hunix : platform.isUnix = true) (h : tty.Lawful platform gives view) (line : Line) {d : δ}
    (hclosed : (view d).setup.isOpen = false) :
    (∀ message, line.refused platform = some message →
      tty.openDevice platform line.native d = .error (unsupported message) d) ∧
    (∀ error d', tty.openDevice platform line.native d = .error error d' → (view d').setup.isOpen = false) ∧
    (∀ d', tty.openDevice platform line.native d = .ok () d' → TtyOpened tty platform gives view line (view d').setup) ∧
    (tty.control platform).Lawful false gives fun d => (view d).map (TtySetup.shown platform) := by
  refine ⟨fun message hrefused => ?_, fun error d' => h.openDevice_error hclosed, fun d' => h.openDevice_ok hunix, h.control⟩
  show (lift (builder platform line.native) >>= _ : Act δ Unit) d = _
  rw [builder_refused hrefused]
  rfl

/-- A PTY of macOS: it has no speed of its own. -/
def pty : Tty (Seen TtySetup) where
  openPort builder := fun v =>
    if builder.baudRate = 0 then
      .ok () { v with setup :=
        { v.setup with
          isOpen := true, exclusive := builder.exclusive.getD v.setup.exclusive, custom := 0
          termios := { v.setup.termios with
            csize := builder.dataBits, cstopb := builder.stopBits = .two, parenb := builder.parity ≠ .none
            parodd := builder.parity = .odd, crtscts := builder.flowControl = .hardware, raw := true } } }
    else .error ⟨.other, "Inappropriate ioctl for device", none⟩ v
  drop v := { v with setup.isOpen := false }
  getFlags := fun v => .ok v.setup.flags v
  setFlags flags := fun v => .ok () { v with setup.flags := flags }
  oNonblock := 4
  register := fun v => .ok () v
  tcgetattr := fun v => .ok v.setup.termios v
  tcsetattr settings := fun v => .ok () { v with setup.termios := settings }
  cfsetspeed settings speed := .ok { settings with speed := speed }
  enotty := "Inappropriate ioctl for device"
  port :=
    { setBaudRate := fun _ v => .error ⟨.other, "Inappropriate ioctl for device", none⟩ v
      baudRate := fun v => .ok v.setup.custom v
      writeDataTerminalReady := fun value v => .ok () { v with modem.dtr := value }
      writeRequestToSend := fun value v => .ok () { v with modem.rts := value }
      setBreak := fun v => .ok () { v with modem.brk := true }
      clearBreak := fun v => .ok () { v with modem.brk := false }
      readClearToSend := fun v => .ok false v
      readDataSetReady := fun v => .ok false v
      readCarrierDetect := fun v => .ok false v
      clear := fun v => .ok () v }

theorem pty_openPort {builder : Builder} {v v' : Seen TtySetup} (h : pty.openPort builder v = .ok () v') :
    v'.setup.isOpen = true ∧ v'.setup.exclusive = builder.exclusive.getD v.setup.exclusive ∧ v'.setup.termios.raw = true ∧
      Asked builder v'.setup.termios := by
  simp only [pty] at h
  split at h
  · cases h
    exact ⟨rfl, rfl, rfl, rfl, rfl, rfl, rfl, rfl⟩
  · cases h

theorem pty_lawful : pty.Lawful .macos Eq id where
  openPort builder v v' h := by
    obtain ⟨hopen, hexclusive, hraw, -⟩ := pty_openPort h
    refine ⟨hopen, hraw, fun exclusive hsome => ?_⟩
    rw [hsome] at hexclusive
    exact hexclusive
  openPort_error builder v error v' h := by
    simp only [pty] at h
    split at h
    · cases h
    · cases h
      rfl
  drop _ := rfl
  getFlags := .always fun _ => ⟨rfl, rfl⟩
  setFlags _ := .always fun _ => rfl
  register := .always fun _ => rfl
  tcgetattr := .always fun _ => ⟨rfl, rfl⟩
  tcsetattr asked := .always fun v => ⟨asked, v.setup.custom, rfl, .all _ _, rfl, fun _ => rfl⟩
  cfsetspeed _ _ _ h := (Except.ok.inj h).symm
  setBaudRate _ := .never
  baudRate := .always fun _ => ⟨rfl, rfl⟩
  signals :=
    { writeDataTerminalReady := fun _ => .always fun _ => rfl
      writeRequestToSend := fun _ => .always fun _ => rfl
      setBreak := .always fun _ => rfl
      clearBreak := .always fun _ => rfl
      readClearToSend := .always fun _ => rfl
      readDataSetReady := .always fun _ => rfl
      readCarrierDetect := .always fun _ => rfl
      clear := .always fun _ => rfl }

theorem pty_exact : pty.Exact id where
  openPort _ _ _ h := (pty_openPort h).2.2.2
  tcsetattr settings v v' h := by
    cases h
    rfl

/-- 9600 baud, seven bits, even parity, two stop bits. -/
def terminal : Line :=
  { path := ⟨"/dev/ttys003", by decide⟩, baudRate := ⟨9600, by decide⟩, dataBits := .seven, stopBits := .two, parity := .even
    lock := true, rtscts := false, xon := true, xoff := true, xany := false, hupcl := true }

/-- A PTY that nobody has open. -/
def unopened : Seen TtySetup where
  setup :=
    { isOpen := false, exclusive := false, flags := 2, custom := 0
      termios := { ixon := false, ixoff := false, ixany := true, csize := .eight, cstopb := false, parenb := false, parodd := false,
                   cmspar := false, crtscts := true, hupcl := false, raw := false, speed := 38400 } }
  modem := { dtr := false, rts := false, brk := false }

theorem device_opened_pty : ∃ v, pty.openDevice .macos terminal.native unopened = .ok () v ∧
    v.setup.wire .macos = terminal.wire ∧ v.setup.rate .macos = 9600 ∧
    (pty.control .macos).Lawful false Eq (Seen.map (TtySetup.shown .macos)) :=
  have hopened := device_opened rfl pty_lawful terminal (d := unopened) rfl
  have hok : pty.openDevice .macos terminal.native unopened = .ok () _ := rfl
  have hset := hopened.2.2.1 _ hok
  ⟨_, hok, hset.wire pty_exact, hset.rate.symm, hopened.2.2.2⟩

end NodeSerialport.Settings
