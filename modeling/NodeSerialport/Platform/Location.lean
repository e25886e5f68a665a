import Mathlib.Tactic.IntervalCases
import Mathlib.Tactic.Ring
import Mathlib.Data.Nat.Bitwise
import Mathlib.Data.List.GetD
/-!
# Locations

`src/platform/macos_list.rs` prints a location the way IOKit numbers it.

* `formatLocation` — the function; `parseU8`, `hex08` — the parts of the standard library it uses;
* `Locates` — how the driver library takes a number apart;
* `location_printed` — what is printed is the number that was taken apart, and nothing is printed where there is none.
-/

namespace NodeSerialport.Platform

/-- The value of decimal digits. -/
def decimal (digits : List Char) : ℕ := digits.foldl (fun value digit => value * 10 + (digit.toNat - 48)) 0

/-- `str::parse::<u8>`, behind the sign. -/
def parseDigits (digits : List Char) : Option ℕ :=
  if digits ≠ [] ∧ digits.all Char.isDigit ∧ decimal digits ≤ 255 then some (decimal digits) else none

/-- `str::parse::<u8>`. -/
def parseU8 (text : String) : Option ℕ :=
  parseDigits (if text.toList.head? = some '+' then text.toList.tail else text.toList)

/-- `{id:08x}`. -/
def hex08 (id : ℕ) : String := String.ofList (List.leftpad 8 '0' (Nat.toDigits 16 id))

/-- The loop of `format_location`, from a port on. -/
def placePorts (id index : ℕ) : List ℕ → ℕ
  | [] => id
  | port :: ports => placePorts (id ||| port <<< (20 - index * 4)) (index + 1) ports

/-- `format_location`. -/
def formatLocation (bus : String) (ports : List ℕ) : Option String := do
  let bus ← parseU8 bus
  if ports.length > 6 || ports.any (· > 15) then none else some (hex08 (placePorts (bus <<< 24) 0 ports))

/-- How a number is taken apart: a byte for the bus and six ports of four bits, of which the last ones may be left out where they
are zero. -/
structure Locates (id : ℕ) (bus : String) (ports : List ℕ) : Prop where
  bus : parseU8 bus = some (id / 2 ^ 24)
  length : ports.length ≤ 6
  ports : ∀ i < 6, ports.getD i 0 = id / 16 ^ (5 - i) % 16

theorem parseU8_le {text : String} {value : ℕ} (h : parseU8 text = some value) : value ≤ 255 := by
  unfold parseU8 parseDigits at h
  generalize (if text.toList.head? = some '+' then text.toList.tail else text.toList) = digits at h
  split at h
  · rename_i hdigits
    cases h
    exact hdigits.2.2
  · cases h

theorem place_eq {a port index : ℕ} (hindex : index ≤ 5) (hport : port ≤ 15) :
    (2 ^ (24 - index * 4) * a) ||| port <<< (20 - index * 4) = 2 ^ (20 - index * 4) * (16 * a + port) := by
  have hpow : 2 ^ (24 - index * 4) = 2 ^ (20 - index * 4) * 16 := by
    rw [show 24 - index * 4 = 20 - index * 4 + 4 by omega, pow_add]
    rfl
  have hlt : port <<< (20 - index * 4) < 2 ^ (24 - index * 4) := by
    rw [Nat.shiftLeft_eq, hpow, mul_comm]
    exact Nat.mul_lt_mul_of_pos_left (by omega) (Nat.two_pow_pos _)
  rw [← Nat.two_pow_add_eq_or_of_lt hlt, Nat.shiftLeft_eq, hpow]
  ring

theorem placePorts_eq {ports : List ℕ} (hports : ∀ port ∈ ports, port ≤ 15) (a index : ℕ) (hlength : index + ports.length ≤ 6) :
    placePorts (2 ^ (24 - index * 4) * a) index ports =
      2 ^ (24 - (index + ports.length) * 4) * ports.foldl (fun value port => 16 * value + port) a := by
  induction ports generalizing a index with
  | nil => rfl
  | cons port ports ih =>
    obtain ⟨hport, hports⟩ := List.forall_mem_cons.1 hports
    rw [List.length_cons] at hlength
    rw [placePorts, place_eq (by omega) hport, show 20 - index * 4 = 24 - (index + 1) * 4 by omega, ih hports _ _ (by omega),
      List.length_cons, List.foldl_cons, show index + 1 + ports.length = index + (ports.length + 1) by omega]

theorem forall_lt_six {P : ℕ → Prop} : (∀ i < 6, P i) ↔ P 0 ∧ P 1 ∧ P 2 ∧ P 3 ∧ P 4 ∧ P 5 := by
  constructor
  · intro h
    exact ⟨h 0 (by omega), h 1 (by omega), h 2 (by omega), h 3 (by omega), h 4 (by omega), h 5 (by omega)⟩
  · rintro ⟨h₀, h₁, h₂, h₃, h₄, h₅⟩ i hi
    interval_cases i <;> assumption

/-- **The loop puts together what is taken apart.** -/
theorem placePorts_locates {id b : ℕ} {ports : List ℕ} (hlength : ports.length ≤ 6) (hports : ∀ port ∈ ports, port ≤ 15) :
    placePorts (b <<< 24) 0 ports = id ↔ b = id / 2 ^ 24 ∧ ∀ i < 6, ports.getD i 0 = id / 16 ^ (5 - i) % 16 := by
  have hplaced := placePorts_eq hports b 0 (by omega)
  rw [Nat.zero_mul, Nat.sub_zero, Nat.zero_add, Nat.mul_comm, ← Nat.shiftLeft_eq] at hplaced
  rw [hplaced, forall_lt_six]
  rcases ports with _ | ⟨p₀, _ | ⟨p₁, _ | ⟨p₂, _ | ⟨p₃, _ | ⟨p₄, _ | ⟨p₅, _ | ⟨p₆, ports⟩⟩⟩⟩⟩⟩⟩
  all_goals
    simp only [List.length_cons, List.length_nil, List.forall_mem_cons, List.foldl_cons, List.foldl_nil, List.getD_cons_zero,
      List.getD_cons_succ, List.getD_nil] at *
    norm_num
    omega

theorem parseU8_toString {b : ℕ} (h : b < 256) : parseU8 (toString b) = some b := by
  have hall : ∀ b < 256, parseU8 (toString b) = some b := by decide +kernel
  exact hall b h

theorem exists_locates {id : ℕ} (h : id < 2 ^ 32) : ∃ bus ports, Locates id bus ports := by
  refine ⟨toString (id / 2 ^ 24), (List.range 6).map fun i => id / 16 ^ (5 - i) % 16, parseU8_toString (by omega), ?_, ?_⟩
  · rw [List.length_map, List.length_range]
  · intro i hi
    rw [List.getD_eq_getElem _ _ (by rw [List.length_map, List.length_range]; exact hi), List.getElem_map, List.getElem_range]

theorem Locates.small {id : ℕ} {bus : String} {ports : List ℕ} (h : Locates id bus ports) : ∀ port ∈ ports, port ≤ 15 := by
  intro port hmem
  obtain ⟨i, hi, rfl⟩ := List.getElem_of_mem hmem
  have hlength := h.length
  have hport := h.ports i (by omega)
  rw [List.getD_eq_getElem _ _ hi] at hport
  omega

theorem Locates.places {id : ℕ} {bus : String} {ports : List ℕ} (h : Locates id bus ports) :
    placePorts ((id / 2 ^ 24) <<< 24) 0 ports = id :=
  (placePorts_locates h.length h.small).2 ⟨rfl, h.ports⟩

theorem formatLocation_eq_some {bus : String} {ports : List ℕ} {text : String} :
    formatLocation bus ports = some text ↔
      ∃ b, parseU8 bus = some b ∧ ports.length ≤ 6 ∧ (∀ port ∈ ports, port ≤ 15) ∧ text = hex08 (placePorts (b <<< 24) 0 ports) := by
  unfold formatLocation
  cases hbus : parseU8 bus with
  | none => simp
  | some b =>
    simp only [bind, Option.bind]
    split
    · rename_i hrefused
      simp only [Bool.or_eq_true, decide_eq_true_eq, List.any_eq_true] at hrefused
      refine ⟨fun h => absurd h (by simp), ?_⟩
      rintro ⟨b', -, hlength, hports, -⟩
      rcases hrefused with hlong | ⟨port, hmem, hlarge⟩
      · omega
      · exact absurd (hports port hmem) (by omega)
    · rename_i hvalid
      simp only [Bool.or_eq_true, decide_eq_true_eq, List.any_eq_true, not_or, not_exists, not_and, Nat.not_lt] at hvalid
      constructor
      · intro h
        exact ⟨b, rfl, hvalid.1, hvalid.2, (Option.some.inj h).symm⟩
      · rintro ⟨b', hb', -, -, rfl⟩
        rw [Option.some.inj hb']

theorem printed_iff (bus : String) (ports : List ℕ) :
    (∀ text, formatLocation bus ports = some text ↔ ∃ id < 2 ^ 32, Locates id bus ports ∧ text = hex08 id) ∧
      ∀ id id', Locates id bus ports → Locates id' bus ports → id = id' := by
  refine ⟨fun text => ⟨fun hprinted => ?_, ?_⟩, fun id id' h h' => ?_⟩
  · obtain ⟨b, hbus, hlength, hports, rfl⟩ := formatLocation_eq_some.1 hprinted
    obtain ⟨hb, hnibbles⟩ := (placePorts_locates hlength hports).1 rfl
    have hle := parseU8_le hbus
    exact ⟨_, by omega, ⟨hbus.trans (congrArg some hb), hlength, hnibbles⟩, rfl⟩
  · rintro ⟨id, -, h, rfl⟩
    exact formatLocation_eq_some.2 ⟨_, h.bus, h.length, h.small, congrArg hex08 h.places.symm⟩
  · have hsame := Option.some.inj (h.bus.symm.trans h'.bus)
    rw [← h.places, ← h'.places, hsame]

/-- **Locations.**  Every number of 32 bits has parts; whatever its parts, it is what they are printed as, and no other number has
them; parts of no number are not printed. -/
theorem location_printed :
    (∀ id < 2 ^ 32, ∃ bus ports, Locates id bus ports) ∧
    (∀ bus ports text, formatLocation bus ports = some text ↔ ∃ id < 2 ^ 32, Locates id bus ports ∧ text = hex08 id) ∧
    ∀ bus ports id id', Locates id bus ports → Locates id' bus ports → id = id' :=
  ⟨fun _ h => exists_locates h, fun bus ports => (printed_iff bus ports).1, fun bus ports => (printed_iff bus ports).2⟩

/-- A bus, and a chain of two ports. -/
example : formatLocation "20" [3, 2] = some "14320000" := by decide

end NodeSerialport.Platform
