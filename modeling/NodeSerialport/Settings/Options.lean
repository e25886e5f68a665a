import NodeSerialport.Lib.Effects
import Mathlib.Data.Rat.Defs
import Mathlib.Data.Rat.Init
import Mathlib.Algebra.Order.Ring.Rat
/-!
# Options

The checks of `ts/lib/options.ts`.  An option may be any value of JavaScript; those a line can be set to are the values of a
`Line`.

* `Value`, `Properties`, `Argument` — what a caller passes;
* `validateOptions`, `validateBaudRate`, `validateSetOptions` — the functions;
* `Line` — what a serial line can be set to, and `Line.value`, its options;
* `valid_iff_line` — the values that are accepted are those of a line, and of one only;
* `validateOptions_error` — an error is about the first property that is not right.
-/

namespace NodeSerialport.Settings

open Lib (check checks checks_bind checks_eq_ok checks_eq_error)

/-! ### Values -/

/-- A number. -/
inductive Number where
  | nan
  | infinite (negative : Bool)
  | finite (value : ℚ)
  deriving DecidableEq

/-- A value of JavaScript. -/
inductive Value where
  | undefined
  | null
  | boolean (value : Bool)
  | number (value : Number)
  /-- Its characters are Unicode scalar values. -/
  | string (value : String)
  /-- Anything else; it equals none of the above. -/
  | other
  deriving DecidableEq

/-- The own enumerable properties of an object, each read once. -/
abbrev Properties (κ : Type) := κ → Option Value

/-- What is passed for an object of options. -/
inductive Argument (κ : Type) where
  | object (properties : Properties κ)
  /-- Nothing truthy, no object, or an array. -/
  | other

variable {κ : Type}

/-- `{ ...a, ...b }`: also `undefined` replaces what was there. -/
def spread (a b : Properties κ) : Properties κ := fun key => (b key).or (a key)

/-- `settings[key]`. -/
def Properties.get (settings : Properties κ) (key : κ) : Value := (settings key).getD .undefined

/-- `snapshot`. -/
def snapshot : Argument κ → Except String (Properties κ)
  | .object properties => .ok properties
  | .other => .error "Options must be an object"

/-- `1.5`. -/
def oneAndHalf : ℚ := ⟨3, 2, by decide, by decide⟩

/-- `[..].includes(value)`, for numbers. -/
def includes (numbers : List ℚ) : Value → Bool
  | .number (.finite value) => value ∈ numbers
  | _ => false

/-! ### The options of a port -/

inductive Key where
  | path | baudRate | dataBits | stopBits | parity | lock | rtscts | xon | xoff | xany | hupcl
  deriving DecidableEq

namespace Key

def name : Key → String
  | path => "path"
  | baudRate => "baudRate"
  | dataBits => "dataBits"
  | stopBits => "stopBits"
  | parity => "parity"
  | lock => "lock"
  | rtscts => "rtscts"
  | xon => "xon"
  | xoff => "xoff"
  | xany => "xany"
  | hupcl => "hupcl"

/-- The flags, as they are checked. -/
def flags : List Key := [lock, rtscts, xon, xoff, xany, hupcl]

end Key

def defaults : Properties Key
  | .dataBits => some (.number (.finite 8))
  | .stopBits => some (.number (.finite 1))
  | .parity => some (.string "none")
  | .lock | .hupcl => some (.boolean true)
  | .rtscts | .xon | .xoff | .xany => some (.boolean false)
  | .path | .baudRate => none

/-- A nonempty string without a null character. -/
def isPath : Value → Bool
  | .string path => path ≠ "" && !path.toList.contains '\x00'
  | _ => false

/-- A positive 32-bit integer. -/
def isBaudRate : Value → Bool
  | .number (.finite value) => value.den = 1 && 0 < value && value ≤ 0xffffffff
  | _ => false

def isParity : Value → Bool
  | .string parity => ["none", "odd", "even", "mark", "space"].contains parity
  | _ => false

def isBoolean : Value → Bool
  | .boolean _ => true
  | _ => false

def validateBaudRate (value : Value) : Except String Value :=
  if isBaudRate value then .ok value else .error "\"baudRate\" must be a positive 32-bit integer"

def validateOptions (options : Argument Key) : Except String (Properties Key) := do
  let settings := spread defaults (← snapshot options)
  check (isPath (settings.get .path)) "\"path\" must be a nonempty device path"
  let _ ← validateBaudRate (settings.get .baudRate)
  check (includes [5, 6, 7, 8] (settings.get .dataBits)) "Invalid dataBits"
  check (includes [1, oneAndHalf, 2] (settings.get .stopBits)) "Invalid stopBits"
  check (isParity (settings.get .parity)) "Invalid parity"
  Key.flags.forM fun key => check (isBoolean (settings.get key)) ("\"" ++ key.name ++ "\" must be a boolean")
  return settings

/-! ### The flags of `set` -/

inductive SetKey where
  | dtr | rts | brk | cts | dsr
  deriving DecidableEq

namespace SetKey

def name : SetKey → String
  | dtr => "dtr"
  | rts => "rts"
  | brk => "brk"
  | cts => "cts"
  | dsr => "dsr"

/-- As they are checked. -/
def all : List SetKey := [dtr, rts, brk, cts, dsr]

end SetKey

def validateSetOptions (options : Argument SetKey) : Except String (Properties SetKey) := do
  let flags ← snapshot options
  SetKey.all.forM fun key =>
    check (flags.get key = .undefined || isBoolean (flags.get key)) ("Invalid " ++ key.name)
  return flags

/-! ### Checks, one property at a time -/

/-- Whether the value of a property is right. -/
def Key.valid : Key → Value → Bool
  | .path => isPath
  | .baudRate => isBaudRate
  | .dataBits => includes [5, 6, 7, 8]
  | .stopBits => includes [1, oneAndHalf, 2]
  | .parity => isParity
  | .lock | .rtscts | .xon | .xoff | .xany | .hupcl => isBoolean

/-- What is said of a property that is not right. -/
def Key.message : Key → String
  | .path => "\"path\" must be a nonempty device path"
  | .baudRate => "\"baudRate\" must be a positive 32-bit integer"
  | .dataBits => "Invalid dataBits"
  | .stopBits => "Invalid stopBits"
  | .parity => "Invalid parity"
  | key => "\"" ++ key.name ++ "\" must be a boolean"

/-- The properties, as they are checked. -/
def Key.order : List Key := [.path, .baudRate, .dataBits, .stopBits, .parity] ++ Key.flags

theorem Key.mem_order (key : Key) : key ∈ Key.order := by cases key <;> decide

/-- The checks of a port's options. -/
def checklist (settings : Properties Key) : List (Bool × String) :=
  Key.order.map fun key => (key.valid (settings.get key), key.message)

theorem validateBaudRate_bind {α : Type} (value : Value) (k : Except String α) :
    (do let _ ← validateBaudRate value; k) = (do check (isBaudRate value) Key.baudRate.message; k) := by
  unfold validateBaudRate check
  cases isBaudRate value <;> rfl

theorem validateOptions_eq (options : Argument Key) : validateOptions options = (do
    let settings := spread defaults (← snapshot options)
    checks (checklist settings)
    return settings) := by
  cases options with
  | other => rfl
  | object properties =>
    have hflags (settings : Properties Key) : (Key.flags.forM fun key =>
        check (isBoolean (settings.get key)) ("\"" ++ key.name ++ "\" must be a boolean")) =
          checks (Key.flags.map fun key => (key.valid (settings.get key), key.message)) := rfl
    simp only [validateOptions, checklist, Key.order, List.cons_append, List.nil_append, List.map_cons, checks_bind,
      validateBaudRate_bind, hflags]
    rfl

/-- **What is accepted**: the properties of the caller over the defaults, each of them right. -/
theorem validateOptions_ok {options : Argument Key} {settings : Properties Key} :
    validateOptions options = .ok settings ↔ ∃ properties, options = .object properties ∧
      settings = spread defaults properties ∧ ∀ key : Key, key.valid (settings.get key) = true := by
  rw [validateOptions_eq]
  cases options with
  | other =>
    constructor
    · intro h
      cases h
    · rintro ⟨_, h, -⟩
      cases h
  | object properties =>
    show (do checks (checklist (spread defaults properties)); return spread defaults properties) = Except.ok settings ↔ _
    have hvalid : checks (checklist (spread defaults properties)) = .ok () ↔
        ∀ key : Key, key.valid ((spread defaults properties).get key) = true := by
      rw [checks_eq_ok, checklist, List.forall_mem_map]
      exact ⟨fun h key => h key key.mem_order, fun h key _ => h key⟩
    constructor
    · intro h
      cases hchecks : checks (checklist (spread defaults properties)) with
      | error message =>
        rw [hchecks] at h
        cases h
      | ok =>
        rw [hchecks] at h
        cases h
        exact ⟨properties, rfl, rfl, hvalid.1 hchecks⟩
    · rintro ⟨properties', heq, rfl, h⟩
      cases heq
      rw [hvalid.2 h]
      rfl

/-- **What is refused**: no object, or the first property that is not right. -/
theorem validateOptions_error {options : Argument Key} {message : String} :
    validateOptions options = .error message ↔ options = .other ∧ message = "Options must be an object" ∨
      ∃ properties before key after, options = .object properties ∧ Key.order = before ++ key :: after ∧
        message = key.message ∧ key.valid ((spread defaults properties).get key) = false ∧
        ∀ earlier ∈ before, earlier.valid ((spread defaults properties).get earlier) = true := by
  rw [validateOptions_eq]
  cases options with
  | other =>
    show Except.error "Options must be an object" = Except.error message ↔ _
    constructor
    · intro h
      exact .inl ⟨rfl, (Except.error.inj h).symm⟩
    · rintro (⟨-, rfl⟩ | ⟨_, _, _, _, h, -⟩)
      · rfl
      · cases h
  | object properties =>
    have hbind : (do
        let settings := spread defaults (← snapshot (.object properties))
        checks (checklist settings)
        return settings) = Except.error message ↔ checks (checklist (spread defaults properties)) = .error message := by
      show (do checks (checklist (spread defaults properties)); return spread defaults properties) = Except.error message ↔ _
      cases checks (checklist (spread defaults properties)) with
      | error message' =>
        constructor
        · intro h
          cases h
          rfl
        · intro h
          cases h
          rfl
      | ok =>
        constructor
        · intro h
          cases h
        · intro h
          cases h
    rw [hbind, checks_eq_error]
    constructor
    · rintro ⟨before, after, hlist, hbefore⟩
      obtain ⟨keys, rest, horder, rfl, hrest⟩ := List.map_eq_append_iff.1 hlist
      obtain ⟨key, later, rfl, hkey, -⟩ := List.map_eq_cons_iff.1 hrest
      obtain ⟨hinvalid, hmessage⟩ := Prod.mk.inj hkey
      refine .inr ⟨properties, keys, key, later, rfl, horder, hmessage.symm, hinvalid, fun earlier hmem => ?_⟩
      exact hbefore _ (List.mem_map_of_mem hmem)
    · rintro (⟨h, -⟩ | ⟨properties', before, key, after, heq, horder, rfl, hinvalid, hbefore⟩)
      · cases h
      · cases heq
        refine ⟨before.map fun key => (key.valid ((spread defaults properties).get key), key.message),
          after.map fun key => (key.valid ((spread defaults properties).get key), key.message), ?_,
          List.forall_mem_map.2 hbefore⟩
        rw [checklist, horder, List.map_append, List.map_cons, hinvalid]

/-! ### Lines -/

namespace Line

/-- A path a device may have. -/
abbrev Path := { path : String // path ≠ "" ∧ '\x00' ∉ path.toList }

/-- A positive 32-bit integer. -/
abbrev BaudRate := { rate : ℕ // 0 < rate ∧ rate ≤ 0xffffffff }

inductive DataBits where
  | five | six | seven | eight
  deriving DecidableEq, Repr

inductive StopBits where
  | one | onePointFive | two
  deriving DecidableEq, Repr

inductive Parity where
  | none | odd | even | mark | space
  deriving DecidableEq, Repr

def DataBits.number : DataBits → ℕ
  | five => 5
  | six => 6
  | seven => 7
  | eight => 8

def StopBits.number : StopBits → ℚ
  | one => 1
  | onePointFive => oneAndHalf
  | two => 2

def Parity.name : Parity → String
  | none => "none"
  | odd => "odd"
  | even => "even"
  | mark => "mark"
  | space => "space"

end Line

/-- **What a serial line can be set to.** -/
structure Line where
  path : Line.Path
  baudRate : Line.BaudRate
  dataBits : Line.DataBits
  stopBits : Line.StopBits
  parity : Line.Parity
  lock : Bool
  rtscts : Bool
  xon : Bool
  xoff : Bool
  xany : Bool
  hupcl : Bool

/-- The options of a line. -/
def Line.value (line : Line) : Key → Value
  | .path => .string line.path.1
  | .baudRate => .number (.finite (line.baudRate.1 : ℚ))
  | .dataBits => .number (.finite (line.dataBits.number : ℚ))
  | .stopBits => .number (.finite line.stopBits.number)
  | .parity => .string line.parity.name
  | .lock => .boolean line.lock
  | .rtscts => .boolean line.rtscts
  | .xon => .boolean line.xon
  | .xoff => .boolean line.xoff
  | .xany => .boolean line.xany
  | .hupcl => .boolean line.hupcl

theorem isPath_iff {value : Value} : isPath value = true ↔ ∃ path : Line.Path, value = .string path.1 := by
  constructor
  · intro h
    cases value with
    | string path =>
      obtain ⟨hne, hnull⟩ := Bool.and_eq_true_iff.1 h
      refine ⟨⟨path, of_decide_eq_true hne, fun hmem => ?_⟩, rfl⟩
      simp [hmem] at hnull
    | _ => cases h
  · rintro ⟨⟨path, hne, hnull⟩, rfl⟩
    simp [isPath, hne, hnull]

theorem isBaudRate_iff {value : Value} :
    isBaudRate value = true ↔ ∃ rate : Line.BaudRate, value = .number (.finite (rate.1 : ℚ)) := by
  constructor
  · intro h
    cases value with
    | number number =>
      cases number with
      | finite q =>
        simp only [isBaudRate, Bool.and_eq_true, decide_eq_true_eq] at h
        obtain ⟨⟨hden, hpos⟩, hle⟩ := h
        have hnum : (q.num : ℚ) = q := (Rat.den_eq_one_iff q).1 hden
        have hnum0 : 0 < q.num := Rat.num_pos.2 hpos
        have hcast : ((q.num.toNat : ℕ) : ℚ) = q := by
          rw [← Int.cast_natCast, Int.toNat_of_nonneg hnum0.le, hnum]
        refine ⟨⟨q.num.toNat, by omega, ?_⟩, by rw [hcast]⟩
        rw [← hcast] at hle
        exact_mod_cast hle
      | _ => cases h
    | _ => cases h
  · rintro ⟨⟨rate, hpos, hle⟩, rfl⟩
    simp only [isBaudRate, Bool.and_eq_true, decide_eq_true_eq]
    exact ⟨⟨Rat.den_natCast rate, by exact_mod_cast hpos⟩, by exact_mod_cast hle⟩

theorem includes_iff {numbers : List ℚ} {value : Value} :
    includes numbers value = true ↔ ∃ number ∈ numbers, value = .number (.finite number) := by
  cases value with
  | number number =>
    cases number with
    | finite q => simp [includes]
    | _ => simp [includes]
  | _ => simp [includes]

theorem dataBits_iff {value : Value} :
    includes [5, 6, 7, 8] value = true ↔ ∃ bits : Line.DataBits, value = .number (.finite (bits.number : ℚ)) := by
  rw [includes_iff]
  constructor
  · rintro ⟨number, hmem, rfl⟩
    simp only [List.mem_cons, List.not_mem_nil, or_false] at hmem
    rcases hmem with rfl | rfl | rfl | rfl
    · exact ⟨.five, rfl⟩
    · exact ⟨.six, rfl⟩
    · exact ⟨.seven, rfl⟩
    · exact ⟨.eight, rfl⟩
  · rintro ⟨bits, rfl⟩
    refine ⟨_, ?_, rfl⟩
    cases bits <;> decide

theorem stopBits_iff {value : Value} :
    includes [1, oneAndHalf, 2] value = true ↔ ∃ bits : Line.StopBits, value = .number (.finite bits.number) := by
  rw [includes_iff]
  constructor
  · rintro ⟨number, hmem, rfl⟩
    simp only [List.mem_cons, List.not_mem_nil, or_false] at hmem
    rcases hmem with rfl | rfl | rfl
    · exact ⟨.one, rfl⟩
    · exact ⟨.onePointFive, rfl⟩
    · exact ⟨.two, rfl⟩
  · rintro ⟨bits, rfl⟩
    refine ⟨_, ?_, rfl⟩
    cases bits <;> decide

theorem isParity_iff {value : Value} : isParity value = true ↔ ∃ parity : Line.Parity, value = .string parity.name := by
  constructor
  · intro h
    cases value with
    | string parity =>
      simp only [isParity, List.contains_cons, List.contains_nil, Bool.or_false, Bool.or_eq_true, beq_iff_eq] at h
      rcases h with rfl | rfl | rfl | rfl | rfl
      · exact ⟨.none, rfl⟩
      · exact ⟨.odd, rfl⟩
      · exact ⟨.even, rfl⟩
      · exact ⟨.mark, rfl⟩
      · exact ⟨.space, rfl⟩
    | _ => cases h
  · rintro ⟨parity, rfl⟩
    cases parity <;> decide

theorem isBoolean_iff {value : Value} : isBoolean value = true ↔ ∃ flag, value = .boolean flag := by
  cases value with
  | boolean flag => exact ⟨fun _ => ⟨flag, rfl⟩, fun _ => rfl⟩
  | _ => simp [isBoolean]

/-- **The values that are accepted are those of a line.** -/
theorem valid_iff_line {settings : Properties Key} :
    (∀ key : Key, key.valid (settings.get key) = true) ↔ ∃ line : Line, ∀ key, settings.get key = line.value key := by
  constructor
  · intro h
    obtain ⟨path, hpath⟩ := isPath_iff.1 (h .path)
    obtain ⟨baudRate, hbaudRate⟩ := isBaudRate_iff.1 (h .baudRate)
    obtain ⟨dataBits, hdataBits⟩ := dataBits_iff.1 (h .dataBits)
    obtain ⟨stopBits, hstopBits⟩ := stopBits_iff.1 (h .stopBits)
    obtain ⟨parity, hparity⟩ := isParity_iff.1 (h .parity)
    obtain ⟨lock, hlock⟩ := isBoolean_iff.1 (h .lock)
    obtain ⟨rtscts, hrtscts⟩ := isBoolean_iff.1 (h .rtscts)
    obtain ⟨xon, hxon⟩ := isBoolean_iff.1 (h .xon)
    obtain ⟨xoff, hxoff⟩ := isBoolean_iff.1 (h .xoff)
    obtain ⟨xany, hxany⟩ := isBoolean_iff.1 (h .xany)
    obtain ⟨hupcl, hhupcl⟩ := isBoolean_iff.1 (h .hupcl)
    refine ⟨{ path, baudRate, dataBits, stopBits, parity, lock, rtscts, xon, xoff, xany, hupcl }, fun key => ?_⟩
    cases key <;> assumption
  · rintro ⟨line, hline⟩ key
    rw [hline]
    cases key with
    | path => exact isPath_iff.2 ⟨_, rfl⟩
    | baudRate => exact isBaudRate_iff.2 ⟨_, rfl⟩
    | dataBits => exact dataBits_iff.2 ⟨_, rfl⟩
    | stopBits => exact stopBits_iff.2 ⟨_, rfl⟩
    | parity => exact isParity_iff.2 ⟨_, rfl⟩
    | _ => rfl

theorem Line.DataBits.number_injective : Function.Injective Line.DataBits.number := by
  intro a b h
  cases a <;> cases b <;> first | rfl | cases h

theorem Line.StopBits.number_injective : Function.Injective Line.StopBits.number := by
  intro a b h
  revert h
  cases a <;> cases b <;> decide

theorem Line.Parity.name_injective : Function.Injective Line.Parity.name := by
  intro a b h
  revert h
  cases a <;> cases b <;> decide

theorem Line.value_injective {a b : Line} (h : ∀ key, a.value key = b.value key) : a = b := by
  have hpath := Subtype.ext (Value.string.inj (h .path))
  have hbaudRate := Subtype.ext (Nat.cast_injective (R := ℚ) (Number.finite.inj (Value.number.inj (h .baudRate))))
  have hdataBits := Line.DataBits.number_injective
    (Nat.cast_injective (R := ℚ) (Number.finite.inj (Value.number.inj (h .dataBits))))
  have hstopBits := Line.StopBits.number_injective (Number.finite.inj (Value.number.inj (h .stopBits)))
  have hparity := Line.Parity.name_injective (Value.string.inj (h .parity))
  have hflag (key : Key) {x y : Bool} (hx : a.value key = .boolean x) (hy : b.value key = .boolean y) : x = y :=
    Value.boolean.inj (hx.symm.trans ((h key).trans hy))
  obtain ⟨path, baudRate, dataBits, stopBits, parity, lock, rtscts, xon, xoff, xany, hupcl⟩ := a
  obtain ⟨path', baudRate', dataBits', stopBits', parity', lock', rtscts', xon', xoff', xany', hupcl'⟩ := b
  cases hpath
  cases hbaudRate
  cases hdataBits
  cases hstopBits
  cases hparity
  cases hflag .lock rfl rfl
  cases hflag .rtscts rfl rfl
  cases hflag .xon rfl rfl
  cases hflag .xoff rfl rfl
  cases hflag .xany rfl rfl
  cases hflag .hupcl rfl rfl
  rfl

end NodeSerialport.Settings
