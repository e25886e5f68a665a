import Mathlib.Data.List.Basic
import Mathlib.Data.UInt
import Mathlib.Tactic.Common
/-!
# USB identities

`usb_identity` and `Metadata::apply` (`src/platform/windows_list.rs`).  A string is the list of its characters; the
lengths and digits the source looks at are those of its UTF-8 bytes.

* `usbIdentity`, `Metadata.apply` — the functions;
* `Recognised` — the grammar of an identifier, by its bus;
* `Refined` — what a port looks like after metadata has been applied;
* `usb_identity_refines`: the parser recognises that grammar, and metadata only refines.
-/

namespace NodeSerialport.Platform

abbrev Str := List Char

/-! ### Strings -/

/-- `str::split_once`. -/
def splitOnce (separator : Char) : Str → Option (Str × Str)
  | [] => none
  | c :: rest =>
    if c = separator then some ([], rest) else (splitOnce separator rest).map fun halves => (c :: halves.1, halves.2)

/-- `str::split(['&', '+'])`: there is always a first field. -/
def split : Str → List Str
  | [] => [[]]
  | c :: rest => if c = '&' ∨ c = '+' then [] :: split rest else (split rest).modifyHead (c :: ·)

/-- `Iterator::next`. -/
def next : List Str → Option (Str × List Str)
  | [] => none
  | field :: fields => some (field, fields)

/-- `str::strip_prefix`. -/
def stripPrefix : Str → Str → Option Str
  | [], s => some s
  | _ :: _, [] => none
  | c :: start, d :: s => if c = d then stripPrefix start s else none

/-- `str::strip_suffix` of one character. -/
def stripSuffix (c : Char) (s : Str) : Option Str := if s.getLast? = some c then some s.dropLast else none

/-- `str::eq_ignore_ascii_case`. -/
def eqIgnoreAsciiCase (s t : Str) : Bool := s.map Char.toLower = t.map Char.toLower

/-- `str::make_ascii_uppercase`. -/
def asciiUppercase (s : Str) : Str := s.map Char.toUpper

/-- `str::bytes`. -/
def bytes (s : Str) : List UInt8 := s.flatMap String.utf8EncodeChar

/-- `u8::is_ascii_hexdigit`. -/
def isAsciiHexdigit (byte : UInt8) : Bool :=
  (0x30 ≤ byte ∧ byte ≤ 0x39) ∨ (0x41 ≤ byte ∧ byte ≤ 0x46) ∨ (0x61 ≤ byte ∧ byte ≤ 0x66)

/-! ### Identifiers -/

def usbBus : Str := ['U', 'S', 'B']

def ftdiBus : Str := ['F', 'T', 'D', 'I', 'B', 'U', 'S']

def vendorPrefix : Str := ['V', 'I', 'D', '_']

def productPrefix : Str := ['P', 'I', 'D', '_']

def interfacePrefix : Str := ['M', 'I', '_']

structure UsbIdentity where
  vendor : Str
  product : Str
  serial : Str
  useParent : Bool
  deriving DecidableEq, Repr

/-- The serial of an identifier, and the fields it leaves. -/
def serialOf (ftdi : Bool) (instance' : Str) (fields : List Str) : Option (Str × List Str) :=
  if ftdi then do
    let (value, fields) ← next fields
    some (((stripSuffix 'A' value).filter fun value => !value.isEmpty).getD value, fields)
  else some (instance', fields)

def usbIdentity (id : Str) : Option UsbIdentity := do
  let (bus, rest) ← splitOnce '\\' id
  let (device, instance') ← splitOnce '\\' rest
  let ftdi := eqIgnoreAsciiCase bus ftdiBus
  if (!ftdi && !eqIgnoreAsciiCase bus usbBus) || instance'.contains '\\' then none
  let (field, fields) ← next (split device)
  let vendor ← stripPrefix vendorPrefix field
  let (field, fields) ← next fields
  let product ← stripPrefix productPrefix field
  if [vendor, product].any fun value => (bytes value).length != 4 || !(bytes value).all isAsciiHexdigit then none
  let (serial, fields) ← serialOf ftdi instance' fields
  if serial.isEmpty then none
  some
    { vendor, product, serial
      useParent := ftdi || fields.any fun field => (stripPrefix interfacePrefix field).isSome }

/-! ### Ports -/

structure PortInfo where
  path : Str
  manufacturer : Option Str
  serialNumber : Option Str
  vendorId : Option Str
  productId : Option Str
  pnpId : Option Str
  locationId : Option Str
  friendlyName : Option Str
  deriving DecidableEq, Repr

structure Metadata where
  pnpId : Option Str
  parentId : Option Str
  manufacturer : Option Str
  locationId : Option Str
  friendlyName : Option Str
  deriving DecidableEq, Repr

/-- The parent whose serial a device takes. -/
def Metadata.parent (m : Metadata) (usb : UsbIdentity) : Option UsbIdentity :=
  (m.parentId.bind usbIdentity).filter fun parent =>
    usb.useParent && eqIgnoreAsciiCase parent.vendor usb.vendor && eqIgnoreAsciiCase parent.product usb.product

def Metadata.apply (m : Metadata) (port : PortInfo) : PortInfo :=
  let port := match m.manufacturer with
    | some value => { port with manufacturer := some value }
    | none => port
  let port := match m.locationId with
    | some value => { port with locationId := some value }
    | none => port
  let port := match m.friendlyName with
    | some value => { port with friendlyName := some value }
    | none => port
  let port := match m.pnpId with
    | some id =>
      let port := match usbIdentity id with
        | some usb =>
          { port with
            vendorId := some usb.vendor
            productId := some usb.product
            serialNumber := some ((m.parent usb).elim usb.serial (·.serial)) }
        | none => port
      { port with pnpId := some id }
    | none => port
  -- keeps the spelling of Windows where the lookups failed
  { port with vendorId := port.vendorId.map asciiUppercase, productId := port.productId.map asciiUppercase }

/-! ### The grammar -/

def SameIgnoringCase (s t : Str) : Prop := s.map Char.toLower = t.map Char.toLower

def HexDigit (c : Char) : Prop := ('0' ≤ c ∧ c ≤ '9') ∨ ('A' ≤ c ∧ c ≤ 'F') ∨ ('a' ≤ c ∧ c ≤ 'f')

/-- Exactly four hexadecimal digits. -/
def FourHexDigits (s : Str) : Prop := s.length = 4 ∧ ∀ c ∈ s, HexDigit c

def isSeparator (c : Char) : Bool := c = '&' ∨ c = '+'

/-- A device: its vendor and product, and the fields after them. -/
structure Device (device vendor product : Str) (fields : List Str) : Prop where
  split : device.splitOnP isSeparator = (vendorPrefix ++ vendor) :: (productPrefix ++ product) :: fields
  vendor : FourHexDigits vendor
  product : FourHexDigits product

/-- One trailing `A` is the channel, unless nothing else is there. -/
def WithoutChannel (value serial : Str) : Prop :=
  (serial ≠ [] ∧ value = serial ++ ['A']) ∨ (serial = value ∧ ∀ rest, rest ≠ [] → value ≠ rest ++ ['A'])

/-- The identifiers `bus\device\instance`, with exactly two backslashes. -/
inductive Recognised : Str → UsbIdentity → Prop where
  | usb {bus device serial vendor product : Str} {fields : List Str}
      (bus_eq : SameIgnoringCase bus usbBus)
      (device_eq : Device device vendor product fields)
      (plain : '\\' ∉ bus ∧ '\\' ∉ device ∧ '\\' ∉ serial)
      (nonempty : serial ≠ []) :
      Recognised (bus ++ '\\' :: (device ++ '\\' :: serial))
        ⟨vendor, product, serial, fields.any interfacePrefix.isPrefixOf⟩
  | ftdi {bus device instance' value serial vendor product : Str} {fields : List Str}
      (bus_eq : SameIgnoringCase bus ftdiBus)
      (device_eq : Device device vendor product (value :: fields))
      (serial_eq : WithoutChannel value serial)
      (plain : '\\' ∉ bus ∧ '\\' ∉ device ∧ '\\' ∉ instance')
      (nonempty : serial ≠ []) :
      Recognised (bus ++ '\\' :: (device ++ '\\' :: instance')) ⟨vendor, product, serial, true⟩

/-- The parent is recognised, with the same vendor and product, and gives its serial. -/
def ParentSerial (m : Metadata) (usb : UsbIdentity) (serial : Str) : Prop :=
  usb.useParent = true ∧ ∃ id parent, m.parentId = some id ∧ Recognised id parent ∧
    SameIgnoringCase parent.vendor usb.vendor ∧ SameIgnoringCase parent.product usb.product ∧ parent.serial = serial

/-- A port after metadata has been applied: what the metadata has replaces what the port had, vendor and product are in
upper case, and all else is as before. -/
structure Refined (m : Metadata) (port port' : PortInfo) : Prop where
  path : port'.path = port.path
  manufacturer : port'.manufacturer = m.manufacturer.or port.manufacturer
  location_id : port'.locationId = m.locationId.or port.locationId
  friendly_name : port'.friendlyName = m.friendlyName.or port.friendlyName
  pnp_id : port'.pnpId = m.pnpId.or port.pnpId
  unrecognised : (∀ id usb, m.pnpId = some id → ¬ Recognised id usb) →
    port'.vendorId = port.vendorId.map asciiUppercase ∧ port'.productId = port.productId.map asciiUppercase ∧
      port'.serialNumber = port.serialNumber
  recognised : ∀ id usb, m.pnpId = some id → Recognised id usb →
    port'.vendorId = some (asciiUppercase usb.vendor) ∧ port'.productId = some (asciiUppercase usb.product) ∧
      ((∃ serial, ParentSerial m usb serial ∧ port'.serialNumber = some serial) ∨
        ((¬ ∃ serial, ParentSerial m usb serial) ∧ port'.serialNumber = some usb.serial))

/-! ### Spec lemmas of the string functions -/

theorem splitOnce_eq_some {separator : Char} {s a b : Str} :
    splitOnce separator s = some (a, b) ↔ s = a ++ separator :: b ∧ separator ∉ a := by
  induction s generalizing a with
  | nil => simp [splitOnce]
  | cons c rest ih =>
    unfold splitOnce
    by_cases hc : c = separator
    · rw [if_pos hc]
      constructor
      · rintro ⟨⟩
        exact ⟨by rw [hc]; rfl, List.not_mem_nil⟩
      · rintro ⟨hs, hnot⟩
        cases a with
        | nil => rw [(List.cons.inj hs).2]
        | cons d a => exact absurd (List.mem_cons.2 (.inl ((List.cons.inj hs).1.symm.trans hc).symm)) hnot
    · rw [if_neg hc, Option.map_eq_some_iff]
      constructor
      · rintro ⟨⟨a', b'⟩, hsplit, hpair⟩
        obtain ⟨rfl, rfl⟩ := Prod.mk.inj hpair
        obtain ⟨rfl, hnot⟩ := ih.1 hsplit
        refine ⟨rfl, fun hmem => ?_⟩
        rcases List.mem_cons.1 hmem with heq | hmem
        · exact hc heq.symm
        · exact hnot hmem
      · rintro ⟨hs, hnot⟩
        cases a with
        | nil => exact absurd (List.cons.inj hs).1 hc
        | cons d a =>
          obtain ⟨rfl, hrest⟩ := List.cons.inj hs
          exact ⟨(a, b), ih.2 ⟨hrest, fun hmem => hnot (List.mem_cons_of_mem _ hmem)⟩, rfl⟩

theorem split_eq (s : Str) : split s = s.splitOnP isSeparator := by
  induction s with
  | nil => exact List.splitOnP_nil.symm
  | cons c rest ih =>
    rw [List.splitOnP_cons_eq_if_modifyHead, ← ih, split]
    by_cases hc : c = '&' ∨ c = '+'
    · rw [if_pos hc, if_pos (by simpa [isSeparator] using hc)]
    · rw [if_neg hc, if_neg (by simpa [isSeparator] using hc)]

theorem next_eq_some {fields rest : List Str} {field : Str} : next fields = some (field, rest) ↔ fields = field :: rest := by
  cases fields <;> simp [next]

theorem stripPrefix_eq_some {start s rest : Str} : stripPrefix start s = some rest ↔ s = start ++ rest := by
  induction start generalizing s with
  | nil => simp [stripPrefix]
  | cons c start ih =>
    cases s with
    | nil => simp [stripPrefix]
    | cons d s =>
      unfold stripPrefix
      by_cases hc : c = d
      · rw [if_pos hc, ih, hc]
        simp
      · rw [if_neg hc]
        simp [Ne.symm hc]

theorem stripPrefix_isSome (start s : Str) : (stripPrefix start s).isSome = start.isPrefixOf s := by
  rw [Bool.eq_iff_iff, Option.isSome_iff_exists, List.isPrefixOf_iff_prefix]
  constructor
  · rintro ⟨rest, h⟩
    exact ⟨rest, (stripPrefix_eq_some.1 h).symm⟩
  · rintro ⟨rest, rfl⟩
    exact ⟨rest, stripPrefix_eq_some.2 rfl⟩

theorem stripSuffix_eq_some {c : Char} {s rest : Str} : stripSuffix c s = some rest ↔ s = rest ++ [c] := by
  unfold stripSuffix
  constructor
  · intro h
    split at h
    · next hlast =>
      rw [← Option.some.inj h]
      exact (List.dropLast_append_getLast? c hlast).symm
    · cases h
  · rintro rfl
    simp

theorem eqIgnoreAsciiCase_iff {s t : Str} : eqIgnoreAsciiCase s t = true ↔ SameIgnoringCase s t := by
  simp [eqIgnoreAsciiCase, SameIgnoringCase]

theorem hexDigit_iff {c : Char} : HexDigit c ↔ (0x30 ≤ c.toNat ∧ c.toNat ≤ 0x39) ∨
    (0x41 ≤ c.toNat ∧ c.toNat ≤ 0x46) ∨ (0x61 ≤ c.toNat ∧ c.toNat ≤ 0x66) := by
  simp only [HexDigit, Char.le_def, UInt32.le_iff_toNat_le, Char.toNat_val, Char.reduceToNat]

theorem isAsciiHexdigit_iff {byte : UInt8} : isAsciiHexdigit byte = true ↔
    (0x30 ≤ byte.toNat ∧ byte.toNat ≤ 0x39) ∨ (0x41 ≤ byte.toNat ∧ byte.toNat ≤ 0x46) ∨
      (0x61 ≤ byte.toNat ∧ byte.toNat ≤ 0x66) := by
  simp [isAsciiHexdigit, UInt8.le_iff_toNat_le]

theorem utf8EncodeChar_hexDigit {c : Char} (hc : HexDigit c) : String.utf8EncodeChar c = [UInt8.ofNat c.toNat] := by
  have hascii : c.toNat ≤ 0x7f := by
    have := hexDigit_iff.1 hc
    omega
  simp [String.utf8EncodeChar, hascii]

theorem isAsciiHexdigit_high {n : ℕ} (hlow : 0x80 ≤ n) (hhigh : n < 256) : isAsciiHexdigit (UInt8.ofNat n) = false := by
  rw [Bool.eq_false_iff, Ne, isAsciiHexdigit_iff, UInt8.toNat_ofNat']
  omega

/-- The bytes of a character are hexadecimal digits where it is one: the first byte of a longer encoding is none. -/
theorem all_utf8EncodeChar (c : Char) : (String.utf8EncodeChar c).all isAsciiHexdigit = true ↔ HexDigit c := by
  by_cases hascii : c.toNat ≤ 0x7f
  · have hencode : String.utf8EncodeChar c = [UInt8.ofNat c.toNat] := by simp [String.utf8EncodeChar, hascii]
    have hbyte : (UInt8.ofNat c.toNat).toNat = c.toNat := by
      rw [UInt8.toNat_ofNat']
      omega
    rw [hencode, List.all_cons, List.all_nil, Bool.and_true, isAsciiHexdigit_iff, hbyte, hexDigit_iff]
  · have hno : ¬ HexDigit c := by
      rw [hexDigit_iff]
      omega
    suffices hall : (String.utf8EncodeChar c).all isAsciiHexdigit = false by simp [hall, hno]
    fun_cases String.utf8EncodeChar with
    | case1 v hv => exact absurd hv hascii
    | case2 v _ _ => rw [List.all_cons, isAsciiHexdigit_high (by omega) (by omega), Bool.false_and]
    | case3 v _ _ _ => rw [List.all_cons, isAsciiHexdigit_high (by omega) (by omega), Bool.false_and]
    | case4 v _ _ _ => rw [List.all_cons, isAsciiHexdigit_high (by omega) (by omega), Bool.false_and]

theorem all_bytes (s : Str) : (bytes s).all isAsciiHexdigit = true ↔ ∀ c ∈ s, HexDigit c := by
  rw [bytes, List.all_flatMap, List.all_eq_true]
  simp only [all_utf8EncodeChar]

theorem length_bytes {s : Str} (hs : ∀ c ∈ s, HexDigit c) : (bytes s).length = s.length := by
  induction s with
  | nil => rfl
  | cons c rest ih =>
    have hc := utf8EncodeChar_hexDigit (hs c List.mem_cons_self)
    have ih := ih fun d hd => hs d (List.mem_cons_of_mem _ hd)
    simp only [bytes] at ih
    simp [bytes, hc, ih]

theorem fourHexDigits_iff (s : Str) :
    ((bytes s).length != 4 || !(bytes s).all isAsciiHexdigit) = false ↔ FourHexDigits s := by
  rw [Bool.or_eq_false_iff, Bool.not_eq_false', all_bytes, bne_eq_false_iff_eq]
  constructor
  · rintro ⟨hlength, hs⟩
    exact ⟨(length_bytes hs).symm.trans hlength, hs⟩
  · rintro ⟨hlength, hs⟩
    exact ⟨(length_bytes hs).trans hlength, hs⟩

/-! ### The parser recognises the grammar -/

theorem not_ftdi_of_usb {bus : Str} (h : SameIgnoringCase bus usbBus) : eqIgnoreAsciiCase bus ftdiBus = false := by
  rw [Bool.eq_false_iff, Ne, eqIgnoreAsciiCase_iff]
  intro hftdi
  exact absurd (h.symm.trans hftdi) (by decide)

theorem withoutChannel_iff {value serial : Str} :
    ((stripSuffix 'A' value).filter fun value => !value.isEmpty).getD value = serial ↔ WithoutChannel value serial := by
  unfold WithoutChannel
  cases hstrip : stripSuffix 'A' value with
  | none =>
    have hno : ∀ rest, value ≠ rest ++ ['A'] := by
      intro rest hvalue
      rw [stripSuffix_eq_some.2 hvalue] at hstrip
      cases hstrip
    constructor
    · rintro rfl
      exact .inr ⟨rfl, fun rest _ => hno rest⟩
    · rintro (⟨-, hvalue⟩ | ⟨rfl, -⟩)
      · exact absurd hvalue (hno serial)
      · rfl
  | some rest =>
    obtain rfl := stripSuffix_eq_some.1 hstrip
    cases rest with
    | nil =>
      constructor
      · rintro rfl
        refine .inr ⟨rfl, fun rest hne hvalue => hne ?_⟩
        exact (List.append_cancel_right hvalue).symm
      · rintro (⟨hne, hvalue⟩ | ⟨rfl, -⟩)
        · exact absurd (List.append_cancel_right hvalue).symm hne
        · rfl
    | cons c rest =>
      constructor
      · rintro rfl
        exact .inl ⟨List.cons_ne_nil c rest, rfl⟩
      · rintro (⟨-, hvalue⟩ | ⟨rfl, hno⟩)
        · exact List.append_cancel_right hvalue
        · exact absurd rfl (hno (c :: rest) (List.cons_ne_nil c rest))

/-- The device of an identifier: its first two fields, with the marks of a vendor and a product. -/
theorem device_iff {device vendor product : Str} {fields : List Str} :
    (∃ field fields' field', next (split device) = some (field, fields') ∧ stripPrefix vendorPrefix field = some vendor ∧
        next fields' = some (field', fields) ∧ stripPrefix productPrefix field' = some product ∧
        ([vendor, product].any fun value => (bytes value).length != 4 || !(bytes value).all isAsciiHexdigit) = false) ↔
      Device device vendor product fields := by
  rw [split_eq]
  constructor
  · rintro ⟨field, fields', field', hnext, hvendor, hnext', hproduct, hcheck⟩
    obtain rfl := next_eq_some.1 hnext'
    obtain rfl := stripPrefix_eq_some.1 hvendor
    obtain rfl := stripPrefix_eq_some.1 hproduct
    simp only [List.any_cons, List.any_nil, Bool.or_false] at hcheck
    obtain ⟨hvendor, hproduct⟩ := Bool.or_eq_false_iff.1 hcheck
    exact ⟨next_eq_some.1 hnext, (fourHexDigits_iff _).1 hvendor, (fourHexDigits_iff _).1 hproduct⟩
  · intro h
    refine ⟨_, _, _, next_eq_some.2 h.split, stripPrefix_eq_some.2 rfl, next_eq_some.2 rfl, stripPrefix_eq_some.2 rfl, ?_⟩
    simp only [List.any_cons, List.any_nil, Bool.or_false]
    exact Bool.or_eq_false_iff.2 ⟨(fourHexDigits_iff _).2 h.vendor, (fourHexDigits_iff _).2 h.product⟩

theorem usbIdentity_eq_some {id : Str} {usb : UsbIdentity} : usbIdentity id = some usb ↔
    ∃ bus rest device instance' vendor product fields serial fields', splitOnce '\\' id = some (bus, rest) ∧
      splitOnce '\\' rest = some (device, instance') ∧
      (eqIgnoreAsciiCase bus ftdiBus = true ∨ eqIgnoreAsciiCase bus usbBus = true) ∧ '\\' ∉ instance' ∧
      Device device vendor product fields ∧
      serialOf (eqIgnoreAsciiCase bus ftdiBus) instance' fields = some (serial, fields') ∧ serial ≠ [] ∧
      usb = ⟨vendor, product, serial, eqIgnoreAsciiCase bus ftdiBus || fields'.any interfacePrefix.isPrefixOf⟩ := by
  unfold usbIdentity
  simp only [Option.bind_eq_bind, Option.bind_none, Option.bind_eq_some_iff, Option.ite_none_left_eq_some,
    Option.some.injEq, Prod.exists, Bool.not_eq_true, stripPrefix_isSome]
  constructor
  · rintro ⟨bus, rest, hbus, device, instance', hdevice, hcheck, field, fields₁, hnext, vendor, hvendor, field', fields, hnext',
      product, hproduct, hdigits, serial, fields', hserial, hempty, rfl⟩
    refine ⟨bus, rest, device, instance', vendor, product, fields, serial, fields', hbus, hdevice, ?_, ?_, ?_, hserial, ?_, rfl⟩
    · cases hftdi : eqIgnoreAsciiCase bus ftdiBus <;> simp_all
    · simpa using (Bool.or_eq_false_iff.1 hcheck).2
    · exact device_iff.1 ⟨field, fields₁, field', hnext, hvendor, hnext', hproduct, hdigits⟩
    · simpa using hempty
  · rintro ⟨bus, rest, device, instance', vendor, product, fields, serial, fields', hbus, hdevice, hknown, hplain, hfields,
      hserial, hempty, rfl⟩
    obtain ⟨field, fields₁, field', hnext, hvendor, hnext', hproduct, hdigits⟩ := device_iff.2 hfields
    refine ⟨bus, rest, hbus, device, instance', hdevice, ?_, field, fields₁, hnext, vendor, hvendor, field', fields, hnext',
      product, hproduct, hdigits, serial, fields', hserial, by simpa using hempty, rfl⟩
    rw [Bool.or_eq_false_iff]
    exact ⟨by rcases hknown with h | h <;> simp [h], by simpa using hplain⟩

theorem usbIdentity_iff (id : Str) (usb : UsbIdentity) : usbIdentity id = some usb ↔ Recognised id usb := by
  rw [usbIdentity_eq_some]
  constructor
  · rintro ⟨bus, rest, device, instance', vendor, product, fields, serial, fields', hbus, hdevice, hknown, hplain, hfields,
      hserial, hempty, rfl⟩
    obtain ⟨rfl, hbus'⟩ := splitOnce_eq_some.1 hbus
    obtain ⟨rfl, hdevice'⟩ := splitOnce_eq_some.1 hdevice
    cases hftdi : eqIgnoreAsciiCase bus ftdiBus with
    | false =>
      rw [hftdi] at hserial hknown
      obtain ⟨rfl, rfl⟩ := Prod.mk.inj (Option.some.inj hserial)
      have husb := eqIgnoreAsciiCase_iff.1 (hknown.resolve_left nofun)
      exact .usb husb hfields ⟨hbus', hdevice', hplain⟩ hempty
    | true =>
      rw [hftdi, serialOf, if_pos rfl, Option.bind_eq_bind, Option.bind_eq_some_iff] at hserial
      obtain ⟨⟨value, more⟩, hnext, hserial⟩ := hserial
      obtain ⟨hvalue, rfl⟩ := Prod.mk.inj (Option.some.inj hserial)
      obtain rfl := next_eq_some.1 hnext
      exact .ftdi (eqIgnoreAsciiCase_iff.1 hftdi) hfields (withoutChannel_iff.1 hvalue) ⟨hbus', hdevice', hplain⟩ hempty
  · rintro (@⟨bus, device, serial, vendor, product, fields, hbus, hdevice, hplain, hempty⟩ |
      @⟨bus, device, instance', value, serial, vendor, product, fields, hbus, hdevice, hserial, hplain, hempty⟩)
    · have hftdi := not_ftdi_of_usb hbus
      refine ⟨bus, _, device, serial, vendor, product, fields, serial, fields, splitOnce_eq_some.2 ⟨rfl, hplain.1⟩,
        splitOnce_eq_some.2 ⟨rfl, hplain.2.1⟩, .inr (eqIgnoreAsciiCase_iff.2 hbus), hplain.2.2, hdevice, ?_, hempty, ?_⟩
      · rw [hftdi]
        rfl
      · rw [hftdi, Bool.false_or]
    · have hftdi := eqIgnoreAsciiCase_iff.2 hbus
      refine ⟨bus, _, device, instance', vendor, product, value :: fields, serial, fields,
        splitOnce_eq_some.2 ⟨rfl, hplain.1⟩, splitOnce_eq_some.2 ⟨rfl, hplain.2.1⟩, .inl hftdi, hplain.2.2, hdevice, ?_,
        hempty, ?_⟩
      · rw [hftdi, serialOf, if_pos rfl]
        exact congrArg (fun serial => some (serial, fields)) (withoutChannel_iff.2 hserial)
      · rw [hftdi, Bool.true_or]

/-- A channel of an FTDI device. -/
example : usbIdentity ("ftdibus\\VID_0403+PID_6001+A702A\\0000".toList) =
    some ⟨"0403".toList, "6001".toList, "A702".toList, true⟩ := by decide

/-! ### Metadata -/

theorem parent_iff {m : Metadata} {usb : UsbIdentity} {serial : Str} :
    ParentSerial m usb serial ↔ (m.parent usb).map (·.serial) = some serial := by
  unfold ParentSerial Metadata.parent
  rw [Option.map_eq_some_iff]
  simp only [Option.filter_eq_some_iff, Option.bind_eq_some_iff, Bool.and_eq_true, eqIgnoreAsciiCase_iff, usbIdentity_iff]
  constructor
  · rintro ⟨huse, id, parent, hparent, hid, hvendor, hproduct, rfl⟩
    exact ⟨parent, ⟨⟨id, hparent, hid⟩, ⟨huse, hvendor⟩, hproduct⟩, rfl⟩
  · rintro ⟨parent, ⟨⟨id, hparent, hid⟩, ⟨huse, hvendor⟩, hproduct⟩, rfl⟩
    exact ⟨huse, id, parent, hparent, hid, hvendor, hproduct, rfl⟩

theorem apply_eq (m : Metadata) (port : PortInfo) : m.apply port =
    { path := port.path
      manufacturer := m.manufacturer.or port.manufacturer
      serialNumber := ((m.pnpId.bind usbIdentity).map fun usb => (m.parent usb).elim usb.serial (·.serial)).or
        port.serialNumber
      vendorId := (((m.pnpId.bind usbIdentity).map (·.vendor)).or port.vendorId).map asciiUppercase
      productId := (((m.pnpId.bind usbIdentity).map (·.product)).or port.productId).map asciiUppercase
      pnpId := m.pnpId.or port.pnpId
      locationId := m.locationId.or port.locationId
      friendlyName := m.friendlyName.or port.friendlyName } := by
  unfold Metadata.apply
  cases m.pnpId with
  | none => cases m.manufacturer <;> cases m.locationId <;> cases m.friendlyName <;> rfl
  | some id =>
    cases husb : usbIdentity id <;> cases m.manufacturer <;> cases m.locationId <;> cases m.friendlyName <;>
      simp [husb]

theorem apply_refined (m : Metadata) (port : PortInfo) : Refined m port (m.apply port) := by
  rw [apply_eq]
  refine ⟨rfl, rfl, rfl, rfl, rfl, fun hno => ?_, fun id usb hid husb => ?_⟩
  · have hnone : m.pnpId.bind usbIdentity = none := by
      rw [Option.eq_none_iff_forall_ne_some]
      intro usb husb
      obtain ⟨id, hid, husb⟩ := Option.bind_eq_some_iff.1 husb
      exact hno id usb hid ((usbIdentity_iff id usb).1 husb)
    simp [hnone]
  · have hsome : m.pnpId.bind usbIdentity = some usb := by
      rw [hid]
      exact (usbIdentity_iff id usb).2 husb
    refine ⟨by simp [hsome], by simp [hsome], ?_⟩
    simp only [parent_iff, hsome]
    cases hparent : m.parent usb <;> simp [hparent]

/-- **USB identities are recognised by one grammar, and metadata only refines a port.** -/
theorem usb_identity_refines :
    (∀ id usb, usbIdentity id = some usb ↔ Recognised id usb) ∧ ∀ m port, Refined m port (Metadata.apply m port) :=
  ⟨usbIdentity_iff, apply_refined⟩

end NodeSerialport.Platform
