import EspGnss.Gnss.Reference
import EspGnss.Nmea.Decimal

/-! # The HDOP value of a GGA line

`nmea_parse_hdop_milli` computes in `int` without a range check. Its result is the
value of field 8 in thousandths exactly as long as that fits an `int`.
-/

namespace EspGnss.Gnss

open Foundation Nmea

/-- A valid GGA line of the parser. -/
structure AssembledGga (line : List UInt8) : Prop where
  assembled : lineFraming.IsFrame line
  valid : ChecksumValid line
  isGga : lineType line = ggaType

/-- The HDOP value of a line is field 8 cut off after three decimals, computed
    without overflow, if that field is a decimal number; otherwise there is none. -/
structure HdopExact (line : List UInt8) : Prop where
  succeeds : (∃ value, nmeaParseHdopMilli line line.length = some (some value)) ↔
    ∃ field ∈ lineField (trimmed line) 8, IsDecimal field
  exact : ∀ value, nmeaParseHdopMilli line line.length = some (some value) →
    ∀ field ∈ lineField (trimmed line) 8,
      value = ⌊1000 * fieldValue field⌋ ∧ 0 ≤ value ∧ ∀ x ∈ decimalOperations field, FitsInt x

/-- The HDOP values of two lines are in the order of their fields. -/
def HdopOrdered (first second : List UInt8) : Prop :=
  ∀ x ∈ lineField (trimmed first) 8, ∀ y ∈ lineField (trimmed second) 8, fieldValue x ≤ fieldValue y →
    ∀ value value', nmeaParseHdopMilli first first.length = some (some value) →
      nmeaParseHdopMilli second second.length = some (some value') → value ≤ value'

/-- A number in field 8 is below 2147483.648. -/
def HdopInRange (line : List UInt8) : Prop :=
  ∀ field ∈ lineField (trimmed line) 8, IsDecimal field → fieldValue field < 2147483648 / 1000

theorem floor_le_iff (x : ℚ) : ⌊1000 * x⌋ ≤ 2147483647 ↔ x < 2147483648 / 1000 := by
  have bound : (2147483647 : ℤ) = 2147483648 - 1 := by norm_num
  rw [bound, Int.le_sub_one_iff, Int.floor_lt, lt_div_iff₀ (by norm_num), mul_comm]
  norm_num

/-- The HDOP value of a valid GGA line is the one of its field 8. -/
theorem AssembledGga.hdop_eq {line : List UInt8} (gga : AssembledGga line) :
    nmeaParseHdopMilli line line.length = some ((lineField (trimmed line) 8).bind decimalMilli) := by
  have spec := nmeaParseHdopMilli_spec (Nat.le_refl line.length)
  have long : nmeaPrefixLen ≤ line.length := Nat.le_trans (by decide) gga.valid.length
  rwa [List.take_length, hdopMilli, if_pos ⟨long, starts_of_valid gga.valid, gga.isGga⟩] at spec

theorem AssembledGga.succeeds_iff {line : List UInt8} (gga : AssembledGga line) :
    (∃ value, nmeaParseHdopMilli line line.length = some (some value)) ↔
      ∃ field ∈ lineField (trimmed line) 8, IsDecimal field := by
  rw [gga.hdop_eq]
  cases lineField (trimmed line) 8 with
  | none => simp
  | some field => simpa [Option.isSome_iff_exists] using decimalMilli_isSome_iff field

/-- A value returned for a field in range is exact. -/
theorem AssembledGga.exact {line : List UInt8} (gga : AssembledGga line) (inRange : HdopInRange line)
    {value : Int} (parsed : nmeaParseHdopMilli line line.length = some (some value))
    {field : List UInt8} (found : field ∈ lineField (trimmed line) 8) :
    value = ⌊1000 * fieldValue field⌋ ∧ ∀ x ∈ decimalOperations field, FitsInt x := by
  rw [gga.hdop_eq, found, Option.bind_some, Option.some.injEq] at parsed
  have decimal : IsDecimal field := (decimalMilli_isSome_iff field).mp (by rw [parsed]; rfl)
  obtain ⟨same, fits⟩ := decimalMilli_exact decimal ((floor_le_iff _).mpr (inRange field found decimal))
  rw [parsed, Option.some.injEq] at same
  exact ⟨same, fits⟩

theorem AssembledGga.hdopExact_iff {line : List UInt8} (gga : AssembledGga line) :
    HdopExact line ↔ HdopInRange line := by
  constructor
  · intro hdop field found decimal
    obtain ⟨value, parsed⟩ := hdop.succeeds.mpr ⟨field, found, decimal⟩
    obtain ⟨floored, -⟩ := hdop.exact value parsed field found
    rw [gga.hdop_eq, found, Option.bind_some, Option.some.injEq] at parsed
    rw [← floor_le_iff, ← floored]
    exact (decimalMilli_fits parsed).2
  · intro inRange
    refine ⟨gga.succeeds_iff, fun value parsed field found => ?_⟩
    obtain ⟨floored, fits⟩ := gga.exact inRange parsed found
    refine ⟨floored, ?_, fits⟩
    rw [floored, Int.floor_nonneg]
    have := fieldValue_nonneg field
    positivity

theorem AssembledGga.ordered {first second : List UInt8} (gga : AssembledGga first)
    (gga' : AssembledGga second) (inRange : HdopInRange first) (inRange' : HdopInRange second) :
    HdopOrdered first second := by
  intro x foundX y foundY smaller value value' parsed parsed'
  rw [(gga.exact inRange parsed foundX).1, (gga'.exact inRange' parsed' foundY).1]
  apply Int.floor_mono
  exact mul_le_mul_of_nonneg_left smaller (by norm_num)

/-- The HDOP values of valid GGA lines are exact and in order if and only if no
    number in field 8 reaches 2147483.648. -/
theorem hdop_exact_iff {first second : List UInt8} (gga : AssembledGga first)
    (gga' : AssembledGga second) :
    (HdopExact first ∧ HdopExact second ∧ HdopOrdered first second) ↔
      HdopInRange first ∧ HdopInRange second := by
  rw [gga.hdopExact_iff, gga'.hdopExact_iff]
  constructor
  · rintro ⟨inRange, inRange', -⟩
    exact ⟨inRange, inRange'⟩
  · rintro ⟨inRange, inRange'⟩
    exact ⟨inRange, inRange', gga.ordered gga' inRange inRange'⟩

/-- `$,,GGA,,,,,,0.9876*5F` -/
def fractionGga : List UInt8 :=
  [36, 44, 44, 71, 71, 65, 44, 44, 44, 44, 44, 44, 48, 46, 57, 56, 55, 54, 42, 53, 70, 10]

theorem fractionGga_assembled : AssembledGga fractionGga where
  assembled := by decide +kernel
  valid := by decide +kernel
  isGga := by decide

theorem fractionGga_exact :
    HdopExact fractionGga ∧ HdopExact fractionGga ∧ HdopOrdered fractionGga fractionGga := by
  have inRange : HdopInRange fractionGga := by
    intro field found decimal
    have isField : lineField (trimmed fractionGga) 8 = some [0x30, dot, 0x39, 0x38, 0x37, 0x36] := by
      decide +kernel
    rw [isField, Option.mem_some_iff] at found
    subst found
    have whole : spell (wholePart [0x30, dot, 0x39, 0x38, 0x37, 0x36]) = [0] := by decide
    have fraction : spell (fractionPart [0x30, dot, 0x39, 0x38, 0x37, 0x36]) = [9, 8, 7, 6] := by decide
    rw [fieldValue, whole, fraction]
    norm_num [decimalValue, digitsValue_cons]
  exact (hdop_exact_iff fractionGga_assembled fractionGga_assembled).mpr ⟨inRange, inRange⟩

/-- `$,,GGA,,,,,,2147484*79` -/
def overflowGga : List UInt8 :=
  [36, 44, 44, 71, 71, 65, 44, 44, 44, 44, 44, 44, 50, 49, 52, 55, 52, 56, 52, 42, 55, 57, 10]

theorem overflowGga_assembled : AssembledGga overflowGga where
  assembled := by decide +kernel
  valid := by decide +kernel
  isGga := by decide

/-- The HDOP value of a valid line can be negative. -/
theorem overflowGga_negative : ¬ ∀ line, AssembledGga line → HdopExact line := by
  intro claimed
  have hdop := claimed _ overflowGga_assembled
  have parsed : nmeaParseHdopMilli overflowGga overflowGga.length = some (some (-2147483296)) := by
    decide +kernel
  obtain ⟨field, found, -⟩ := hdop.succeeds.mp ⟨_, parsed⟩
  have nonneg := (hdop.exact _ parsed field found).2.1
  omega

end EspGnss.Gnss
