import EspGnss.Foundation.Decimal
import EspGnss.Nmea.Fields

/-! # The value of a decimal field

`nmea_parse_decimal_milli` accumulates into 32-bit integers without a range check.
The exact results of its `int` operations are listed here beside the loop, and the
loop is compared with the rational number that a field denotes.
-/

namespace EspGnss.Nmea

open Foundation

/-- The range of `int`. -/
def FitsInt (x : Int) : Prop := -2147483648 ≤ x ∧ x ≤ 2147483647

/-- The exact results of the `int` operations in one pass through the digit loop. -/
def DecimalScan.operations (scan : DecimalScan) (byte : UInt8) : List Int :=
  if byte = dot ∨ byte < 0x30 ∨ byte > 0x39 then []
  else
    let digit : Int := (byte.toNat : Int) - 0x30
    if !scan.seenDot then [scan.integerPart * 10, cInt (scan.integerPart * 10) + digit]
    else if scan.fractionalDigits < 3 then
      [scan.fractionalPart * 10, cInt (scan.fractionalPart * 10) + digit]
    else []

/-- Those of the digit loop. -/
def scanOperations : DecimalScan → List UInt8 → List Int
  | _, [] => []
  | scan, byte :: rest =>
      scan.operations byte ++
        match scan.next byte with
        | none => []
        | some scan => scanOperations scan rest

/-- Those of `while (fractional_digits < 3) fractional_part *= 10`. -/
def padOperations : (missing : Nat) → Int → List Int
  | 0, _ => []
  | missing + 1, fractionalPart =>
      fractionalPart * 10 :: padOperations missing (cInt (fractionalPart * 10))

/-- Those after the digit loop. -/
def DecimalScan.valueOperations (scan : DecimalScan) : List Int :=
  if !scan.seenDigit then []
  else
    padOperations (3 - scan.fractionalDigits) scan.fractionalPart ++
      [scan.integerPart * 1000,
        cInt (scan.integerPart * 1000) + padMilli (3 - scan.fractionalDigits) scan.fractionalPart]

/-- Those of `nmea_parse_decimal_milli` on a field. -/
def decimalOperations (field : List UInt8) : List Int :=
  scanOperations .start field ++
    match field.foldlM DecimalScan.next .start with
    | none => []
    | some scan => scan.valueOperations

/-- The digits that some bytes spell. -/
def spell (bytes : List UInt8) : List Nat := bytes.map (·.toNat - 0x30)

/-- The bytes before the dot of a field, and those after it. -/
def wholePart (field : List UInt8) : List UInt8 := field.takeWhile (· ≠ dot)
def fractionPart (field : List UInt8) : List UInt8 := (field.dropWhile (· ≠ dot)).drop 1

/-- The rational number that a decimal field denotes. -/
def fieldValue (field : List UInt8) : ℚ :=
  decimalValue (spell (wholePart field)) (spell (fractionPart field))

theorem cInt_of_fits {x : Int} (fits : FitsInt x) : cInt x = x := by
  obtain ⟨low, high⟩ := fits
  apply Int.bmod_eq_of_le
  · omega
  · omega

def AreDigits (bytes : List UInt8) : Prop := ∀ byte ∈ bytes, 0x30 ≤ byte ∧ byte ≤ 0x39

theorem spell_lt {bytes : List UInt8} (digits : AreDigits bytes) : ∀ digit ∈ spell bytes, digit < 10 := by
  intro digit member
  obtain ⟨byte, spelled, rfl⟩ := List.mem_map.mp member
  have high : byte.toNat ≤ 0x39 := UInt8.le_iff_toNat_le.mp (digits byte spelled).2
  omega

@[simp] theorem spell_length (bytes : List UInt8) : (spell bytes).length = bytes.length :=
  List.length_map ..

theorem digit_spec {byte : UInt8} (digit : 0x30 ≤ byte ∧ byte ≤ 0x39) :
    byte ≠ dot ∧ ¬(byte < 0x30 ∨ byte > 0x39) ∧
      (byte.toNat : Int) - 0x30 = (byte.toNat - 0x30 : Nat) := by
  have low : 0x30 ≤ byte.toNat := UInt8.le_iff_toNat_le.mp digit.1
  refine ⟨?_, ?_, by omega⟩
  · intro isDot
    rw [isDot] at low
    exact absurd low (by decide)
  · simpa only [not_or, UInt8.not_lt] using digit

/-- Appending a digit to an `int` that stays in range is exact. -/
theorem appendDigit_spec {value digit : Nat} (fits : value * 10 + digit ≤ 2147483647) :
    cInt (cInt ((value : Int) * 10) + digit) = (value * 10 + digit : Nat) ∧
      FitsInt ((value : Int) * 10) ∧ FitsInt (cInt ((value : Int) * 10) + digit) := by
  have shifted : FitsInt ((value : Int) * 10) := by unfold FitsInt; omega
  have appended : FitsInt ((value : Int) * 10 + digit) := by unfold FitsInt; omega
  rw [cInt_of_fits shifted, cInt_of_fits appended]
  exact ⟨by omega, shifted, appended⟩

/-- The loop before the dot. -/
theorem scan_whole {bytes : List UInt8} (digits : AreDigits bytes) (seen : Bool) (value : Nat)
    (fits : value * 10 ^ bytes.length + digitsValue (spell bytes) ≤ 2147483647) :
    bytes.foldlM DecimalScan.next ⟨value, 0, 0, false, seen⟩ =
        some ⟨(value * 10 ^ bytes.length + digitsValue (spell bytes) : Nat), 0, 0, false,
          seen || !bytes.isEmpty⟩ ∧
      ∀ x ∈ scanOperations ⟨value, 0, 0, false, seen⟩ bytes, FitsInt x := by
  induction bytes generalizing seen value with
  | nil => simp [spell, scanOperations]
  | cons byte rest ih =>
      obtain ⟨notDot, inRange, digit⟩ := digit_spec (digits byte (List.mem_cons_self ..))
      have total : value * 10 ^ (byte :: rest).length + digitsValue (spell (byte :: rest)) =
          (value * 10 + (byte.toNat - 0x30)) * 10 ^ rest.length + digitsValue (spell rest) := by
        rw [spell, List.map_cons, digitsValue_cons, List.length_map, List.length_cons, pow_succ]
        simp only [spell]
        ring
      rw [total] at fits ⊢
      have here : value * 10 + (byte.toNat - 0x30) ≤ 2147483647 := by
        have grown := Nat.le_mul_of_pos_right (value * 10 + (byte.toNat - 0x30))
          (Nat.pow_pos (n := rest.length) (by omega : 0 < 10))
        omega
      obtain ⟨appended, shiftFits, digitFits⟩ := appendDigit_spec here
      obtain ⟨scanned, restFits⟩ :=
        ih (fun later member => digits later (List.mem_cons_of_mem _ member)) true _ fits
      have advanced : DecimalScan.next ⟨value, 0, 0, false, seen⟩ byte =
          some ⟨(value * 10 + (byte.toNat - 0x30) : Nat), 0, 0, false, true⟩ := by
        simp [DecimalScan.next, notDot, inRange, digit, appended]
      rw [List.foldlM_cons, scanOperations, advanced]
      refine ⟨by simpa using scanned, ?_⟩
      rw [List.forall_mem_append]
      exact ⟨by simp [DecimalScan.operations, notDot, inRange, digit, shiftFits, digitFits], restFits⟩

/-- The loop after the dot keeps the first three digits. -/
theorem scan_fraction {bytes : List UInt8} (digits : AreDigits bytes) (seen : Bool) (whole : Int)
    {value count : Nat} (small : value < 10 ^ count) (room : count ≤ 3) :
    bytes.foldlM DecimalScan.next ⟨whole, value, count, true, seen⟩ =
        some ⟨whole,
          (value * 10 ^ (bytes.take (3 - count)).length +
            digitsValue (spell (bytes.take (3 - count))) : Nat),
          count + (bytes.take (3 - count)).length, true, seen || !bytes.isEmpty⟩ ∧
      ∀ x ∈ scanOperations ⟨whole, value, count, true, seen⟩ bytes, FitsInt x := by
  induction bytes generalizing seen value count with
  | nil => simp [spell, scanOperations]
  | cons byte rest ih =>
      obtain ⟨notDot, inRange, digit⟩ := digit_spec (digits byte (List.mem_cons_self ..))
      have restDigits : AreDigits rest := fun later member => digits later (List.mem_cons_of_mem _ member)
      rw [List.foldlM_cons, scanOperations, List.forall_mem_append]
      rcases Nat.lt_or_ge count 3 with more | full
      · have decimal : byte.toNat - 0x30 < 10 :=
          spell_lt digits _ (List.mem_map_of_mem (List.mem_cons_self ..))
        have smaller : value * 10 + (byte.toNat - 0x30) < 10 ^ (count + 1) := by
          rw [pow_succ]
          omega
        have bounded : 10 ^ (count + 1) ≤ 10 ^ 3 := Nat.pow_le_pow_right (by omega) more
        obtain ⟨appended, shiftFits, digitFits⟩ :=
          appendDigit_spec (by omega : value * 10 + (byte.toNat - 0x30) ≤ 2147483647)
        obtain ⟨scanned, restFits⟩ := ih restDigits true smaller more
        have advanced : DecimalScan.next ⟨whole, value, count, true, seen⟩ byte =
            some ⟨whole, (value * 10 + (byte.toNat - 0x30) : Nat), count + 1, true, true⟩ := by
          simp [DecimalScan.next, notDot, inRange, digit, appended, more]
        obtain ⟨left, three⟩ : ∃ left, 3 - count = left + 1 := ⟨3 - (count + 1), by omega⟩
        have same : 3 - (count + 1) = left := by omega
        rw [same] at scanned
        rw [advanced, three, List.take_succ_cons]
        refine ⟨?_, by simp [DecimalScan.operations, notDot, inRange, digit, shiftFits, digitFits, more],
          restFits⟩
        have total : value * 10 ^ (byte :: rest.take left).length +
              digitsValue (spell (byte :: rest.take left)) =
            (value * 10 + (byte.toNat - 0x30)) * 10 ^ (rest.take left).length +
              digitsValue (spell (rest.take left)) := by
          rw [spell, List.map_cons, digitsValue_cons, List.length_map, List.length_cons, pow_succ]
          simp only [spell]
          ring
        rw [total]
        simpa [Nat.add_assoc, Nat.add_comm 1] using scanned
      · obtain ⟨scanned, restFits⟩ := ih restDigits true small room
        obtain rfl : count = 3 := by omega
        have advanced : DecimalScan.next ⟨whole, value, 3, true, seen⟩ byte =
            some ⟨whole, value, 3, true, true⟩ := by
          simp [DecimalScan.next, notDot, inRange]
        rw [advanced]
        exact ⟨by simpa using scanned, by simp [DecimalScan.operations, notDot, inRange], restFits⟩

/-- Padding a fraction to thousandths. -/
theorem pad_spec (missing value : Nat) (fits : value * 10 ^ missing ≤ 2147483647) :
    padMilli missing value = (value * 10 ^ missing : Nat) ∧
      ∀ x ∈ padOperations missing value, FitsInt x := by
  induction missing generalizing value with
  | zero => simp [padMilli, padOperations]
  | succ missing ih =>
      have total : value * 10 ^ (missing + 1) = value * 10 * 10 ^ missing := by ring
      rw [total] at fits ⊢
      have here : value * 10 ≤ 2147483647 :=
        Nat.le_trans (Nat.le_mul_of_pos_right _ (Nat.pow_pos (by omega))) fits
      have shifted : FitsInt ((value : Int) * 10) := by unfold FitsInt; omega
      obtain ⟨padded, restFits⟩ := ih (value * 10) fits
      rw [padMilli, padOperations, cInt_of_fits shifted, List.forall_mem_cons]
      exact ⟨mod_cast padded, shifted, mod_cast restFits⟩

theorem scanOperations_append (scan : DecimalScan) (first second : List UInt8) :
    scanOperations scan (first ++ second) =
      scanOperations scan first ++
        match first.foldlM DecimalScan.next scan with
        | none => []
        | some scan => scanOperations scan second := by
  induction first generalizing scan with
  | nil => rfl
  | cons byte rest ih =>
      simp only [List.cons_append, scanOperations, List.foldlM_cons]
      cases advanced : scan.next byte with
      | none => simp
      | some scan' => simp [ih]

/-- The two parts of a decimal field are digits, with the dot between them if
    there is one. -/
theorem IsDecimal.parts {field : List UInt8} (decimal : IsDecimal field) :
    AreDigits (wholePart field) ∧ AreDigits (fractionPart field) ∧
      (wholePart field ≠ [] ∨ fractionPart field ≠ []) ∧
      (field = wholePart field ∧ fractionPart field = [] ∨
        field = wholePart field ++ dot :: fractionPart field) := by
  obtain ⟨allowed, dots, someDigit⟩ := decimal
  have halves : wholePart field ++ field.dropWhile (· ≠ dot) = field := List.takeWhile_append_dropWhile
  have wholeDigits : AreDigits (wholePart field) := by
    intro byte member
    have notDot : byte ≠ dot := by simpa using List.mem_takeWhile_imp member
    exact (allowed byte (List.takeWhile_subset _ member)).resolve_left notDot
  unfold fractionPart
  cases rest : field.dropWhile (· ≠ dot) with
  | nil =>
      rw [rest, List.append_nil] at halves
      refine ⟨wholeDigits, fun byte impossible => absurd impossible List.not_mem_nil, .inl ?_,
        .inl ⟨halves.symm, rfl⟩⟩
      obtain ⟨byte, member, -⟩ := someDigit
      exact List.ne_nil_of_mem (halves.symm ▸ member)
  | cons first fraction =>
      have isDot : first = dot := by
        have stopped := List.head?_dropWhile_not (· ≠ dot) field
        rw [rest] at stopped
        simpa using stopped
      subst isDot
      rw [rest] at halves
      have noDot : dot ∉ fraction := by
        rw [← halves, List.count_append, List.count_cons_self] at dots
        exact List.count_eq_zero.mp (by omega)
      refine ⟨wholeDigits, ?_, ?_, .inr halves.symm⟩
      · intro byte member
        have inField : byte ∈ field := by
          rw [← halves]
          exact List.mem_append_right _ (List.mem_cons_of_mem _ member)
        exact (allowed byte inField).resolve_left (fun isDot => noDot (isDot ▸ member))
      · obtain ⟨byte, member, notDot⟩ := someDigit
        rw [← halves, List.mem_append, List.mem_cons] at member
        rcases member with inWhole | isDot | inFraction
        · exact .inl (List.ne_nil_of_mem inWhole)
        · exact absurd isDot notDot
        · exact .inr (List.ne_nil_of_mem inFraction)

/-- The digit loop on a decimal field. -/
theorem scan_field {field : List UInt8} (decimal : IsDecimal field)
    (fits : digitsValue (spell (wholePart field)) ≤ 2147483647) :
    ∃ seenDot, field.foldlM DecimalScan.next .start =
        some ⟨digitsValue (spell (wholePart field)),
          digitsValue (spell ((fractionPart field).take 3)),
          ((fractionPart field).take 3).length, seenDot, true⟩ ∧
      ∀ x ∈ scanOperations .start field, FitsInt x := by
  obtain ⟨wholeDigits, fractionDigits, someDigit, shape⟩ := decimal.parts
  generalize wholePart field = whole at *
  generalize fractionPart field = fraction at *
  have wholeScan := scan_whole wholeDigits false 0 (by simpa using fits)
  simp only [Nat.zero_mul, Nat.zero_add, Bool.false_or, Nat.cast_zero] at wholeScan
  obtain ⟨wholeScanned, wholeFits⟩ := wholeScan
  rw [DecimalScan.start]
  rcases shape with ⟨rfl, rfl⟩ | rfl
  · have seen : field.isEmpty = false := by simpa using someDigit
    rw [seen] at wholeScanned
    exact ⟨false, wholeScanned, wholeFits⟩
  · have fractionScan := scan_fraction fractionDigits (!whole.isEmpty)
      (digitsValue (spell whole)) (by decide : 0 < 10 ^ 0) (by decide)
    simp only [Nat.zero_mul, Nat.zero_add, Nat.cast_zero, Nat.sub_zero] at fractionScan
    obtain ⟨fractionScanned, fractionFits⟩ := fractionScan
    have seen : (!whole.isEmpty || !fraction.isEmpty) = true := by
      rcases someDigit with some | some <;> simp [some]
    have atDot : DecimalScan.next ⟨digitsValue (spell whole), 0, 0, false, !whole.isEmpty⟩ dot =
        some ⟨digitsValue (spell whole), 0, 0, true, !whole.isEmpty⟩ := DecimalScan.next_dot _
    rw [seen] at fractionScanned
    refine ⟨true, ?_, ?_⟩
    · rw [List.foldlM_append, wholeScanned, Option.bind_eq_bind, Option.bind_some, List.foldlM_cons,
        atDot]
      exact fractionScanned
    · rw [scanOperations_append, wholeScanned, List.forall_mem_append]
      refine ⟨wholeFits, ?_⟩
      simp only [scanOperations, atDot]
      simpa [DecimalScan.operations] using fractionFits

/-- As long as the value of a decimal field in thousandths fits an `int`, it is what
    the C function returns and no `int` operation overflows. -/
theorem decimalMilli_exact {field : List UInt8} (decimal : IsDecimal field)
    (fits : ⌊1000 * fieldValue field⌋ ≤ 2147483647) :
    decimalMilli field = some ⌊1000 * fieldValue field⌋ ∧
      ∀ x ∈ decimalOperations field, FitsInt x := by
  have floored := floor_decimalValue (spell (wholePart field)) (spell (fractionPart field)) 3
    (spell_lt decimal.parts.2.1)
  have cut : (spell (fractionPart field)).take 3 = spell ((fractionPart field).take 3) := List.map_take.symm
  have missing : 3 - ((fractionPart field).take 3).length = 3 - (fractionPart field).length := by
    rw [List.length_take]
    omega
  have value : ⌊1000 * fieldValue field⌋ =
      (digitsValue (spell (wholePart field)) * 1000 +
        digitsValue (spell ((fractionPart field).take 3)) *
          10 ^ (3 - ((fractionPart field).take 3).length) : Nat) := by
    have thousand : (10 : ℚ) ^ 3 = 1000 := by norm_num
    rw [cut, spell_length, ← missing, thousand] at floored
    rw [fieldValue, floored]
    push_cast
    ring
  rw [value] at fits ⊢
  obtain ⟨seenDot, scanned, scanFits⟩ := scan_field decimal (by omega)
  obtain ⟨padded, padFits⟩ := pad_spec (3 - ((fractionPart field).take 3).length)
    (digitsValue (spell ((fractionPart field).take 3))) (by omega)
  have scaled : FitsInt ((digitsValue (spell (wholePart field)) : Int) * 1000) := by
    unfold FitsInt
    omega
  have summed : FitsInt ((digitsValue (spell (wholePart field)) : Int) * 1000 +
      (digitsValue (spell ((fractionPart field).take 3)) *
        10 ^ (3 - ((fractionPart field).take 3).length) : Nat)) := by
    unfold FitsInt
    omega
  constructor
  · rw [decimalMilli, scanned, Option.bind_some, DecimalScan.value, padded, cInt_of_fits scaled,
      cInt_of_fits summed]
    simp
  · rw [decimalOperations, scanned, List.forall_mem_append]
    refine ⟨scanFits, ?_⟩
    simp only [DecimalScan.valueOperations, Bool.not_true, Bool.false_eq_true, if_false, padded,
      cInt_of_fits scaled]
    rw [List.forall_mem_append, List.forall_mem_cons, List.forall_mem_singleton]
    exact ⟨padFits, scaled, summed⟩

theorem cInt_fits (x : Int) : FitsInt (cInt x) := by
  have low := Int.le_bmod (x := x) (m := 2 ^ 32) (by decide)
  have high := Int.bmod_lt (x := x) (m := 2 ^ 32) (by decide)
  unfold FitsInt cInt
  omega

/-- What the C function returns is an `int`. -/
theorem decimalMilli_fits {field : List UInt8} {value : Int} (parsed : decimalMilli field = some value) :
    FitsInt value := by
  obtain ⟨scan, -, finished⟩ := Option.bind_eq_some_iff.mp parsed
  unfold DecimalScan.value at finished
  split at finished
  · cases finished
  · obtain rfl := Option.some.inj finished
    exact cInt_fits _

theorem fieldValue_nonneg (field : List UInt8) : 0 ≤ fieldValue field := decimalValue_nonneg ..

end EspGnss.Nmea
