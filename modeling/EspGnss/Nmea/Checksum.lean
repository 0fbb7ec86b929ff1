import EspGnss.Foundation.Memory
import Mathlib.Data.List.DropRight
import Mathlib.Data.Nat.Bitwise

/-! # NMEA checksum test

`nmeaChecksumOk` is the loop-by-loop reading of the C function over a checked
array. `ChecksumValid` says what an NMEA line with a correct checksum is; the
two agree on every buffer, and no read leaves it.
-/

namespace EspGnss.Nmea

open Foundation

/-! Character constants of the source. -/

/-- `'$'` -/
def dollar : UInt8 := 0x24
/-- `'*'` -/
def star : UInt8 := 0x2A
/-- `','` -/
def comma : UInt8 := 0x2C
/-- `'.'` -/
def dot : UInt8 := 0x2E
/-- `'\r'` -/
def carriageReturn : UInt8 := 0x0D
/-- `'\n'` -/
def lineFeed : UInt8 := 0x0A

def nmeaHexDigitToValue (digit : UInt8) : Int :=
  if 0x30 ≤ digit ∧ digit ≤ 0x39 then (digit.toNat : Int) - 0x30
  else if 0x41 ≤ digit ∧ digit ≤ 0x46 then (digit.toNat : Int) - 0x41 + 10
  else if 0x61 ≤ digit ∧ digit ≤ 0x66 then (digit.toNat : Int) - 0x61 + 10
  else -1

/-- The loop that drops trailing CR and LF bytes; it opens both
    `nmea_checksum_ok` and `nmea_get_field_range`. -/
def trimLineEnd (sentence : List UInt8) : Nat → Option Nat
  | 0 => some 0
  | len + 1 => do
      let byte ← sentence[len]?
      if byte = carriageReturn ∨ byte = lineFeed then trimLineEnd sentence len
      else return len + 1

/-- `for (ptr = start; ptr < start + count; ptr++) checksum ^= *ptr` -/
def xorBytes (sentence : List UInt8) : (start count : Nat) → UInt8 → Option UInt8
  | _, 0, checksum => some checksum
  | start, count + 1, checksum => do
      let byte ← sentence[start]?
      xorBytes sentence (start + 1) count (checksum ^^^ byte)

/-- `nmea_checksum_ok(sentence, len)`; `none` is a read outside `sentence`. -/
def nmeaChecksumOk (sentence : List UInt8) (len : Nat) : Option Bool := do
  let len ← trimLineEnd sentence len
  -- Short or non-NMEA-looking buffers cannot carry "$...*hh".
  if len < 10 then return false
  if (← sentence[0]?) ≠ dollar then return false
  match ← Memory.memchr sentence star 1 (len - 1) with
  | none => return false
  | some position =>
      if len - position ≠ 3 then return false
      let high := nmeaHexDigitToValue (← sentence[position + 1]?)
      let low := nmeaHexDigitToValue (← sentence[position + 2]?)
      if high < 0 ∨ low < 0 then return false
      let checksum ← xorBytes sentence 1 (position - 1) 0
      return checksum == UInt8.ofNat ((high.toNat <<< 4) ||| low.toNat)

def isLineEnd (byte : UInt8) : Bool := byte = carriageReturn ∨ byte = lineFeed

/-- A buffer without its trailing CR and LF bytes. -/
def trimmed (buffer : List UInt8) : List UInt8 := buffer.rdropWhile isLineEnd

/-- The hexadecimal digits in order of their value, in either case. -/
def hexDigits : List (List UInt8) :=
  [[0x30, 0x31, 0x32, 0x33, 0x34, 0x35, 0x36, 0x37, 0x38, 0x39, 0x41, 0x42, 0x43, 0x44, 0x45, 0x46],
   [0x30, 0x31, 0x32, 0x33, 0x34, 0x35, 0x36, 0x37, 0x38, 0x39, 0x61, 0x62, 0x63, 0x64, 0x65, 0x66]]

/-- `digit` is a hexadecimal digit of either case with the given value. -/
def HexValue (digit : UInt8) (value : Nat) : Prop :=
  ∃ digits ∈ hexDigits, digits[value]? = some digit

instance (digit : UInt8) (value : Nat) : Decidable (HexValue digit value) :=
  inferInstanceAs (Decidable (∃ digits ∈ hexDigits, digits[value]? = some digit))

/-- `$payload*hh` with at least six payload bytes, none of them `*`, whose XOR
    is the number written by the two hexadecimal digits. -/
def ChecksumValid (buffer : List UInt8) : Prop :=
  ∃ payload high low h l,
    trimmed buffer = dollar :: (payload ++ [star, high, low]) ∧
    6 ≤ payload.length ∧ star ∉ payload ∧ HexValue high h ∧ HexValue low l ∧
    payload.foldl (· ^^^ ·) 0 = UInt8.ofNat (16 * h + l)

theorem HexValue.lt {digit value} (hex : HexValue digit value) : value < 16 := by
  obtain ⟨digits, member, found⟩ := hex
  have short : ∀ digits ∈ hexDigits, digits.length = 16 := by decide
  have inside := (List.getElem?_eq_some_iff.mp found).1
  exact short digits member ▸ inside

/-- The three ranges of the C function are the two digit tables. -/
theorem hexValue_iff (digit : UInt8) (value : Nat) :
    HexValue digit value ↔ nmeaHexDigitToValue digit = value := by
  constructor
  · intro hex
    have table : ∀ value : Nat, value < 16 → ∀ digits ∈ hexDigits, ∀ digit ∈ digits[value]?,
        nmeaHexDigitToValue digit = value := by decide +kernel
    obtain ⟨digits, member, found⟩ := hex
    exact table value (HexValue.lt ⟨digits, member, found⟩) digits member digit found
  · intro same
    have table : ∀ code < 256, nmeaHexDigitToValue (UInt8.ofNat code) < 0 ∨
        HexValue (UInt8.ofNat code) (nmeaHexDigitToValue (UInt8.ofNat code)).toNat := by
      decide +kernel
    have entry := table digit.toNat digit.toNat_lt
    rw [UInt8.ofNat_toNat, same] at entry
    exact entry.resolve_left (by omega)

theorem HexValue.unique {digit value value'} (left : HexValue digit value)
    (right : HexValue digit value') : value = value' := by
  have first := (hexValue_iff digit value).mp left
  have second := (hexValue_iff digit value').mp right
  exact Int.ofNat_inj.mp (first.symm.trans second)

theorem hexValue_of_nonneg {digit : UInt8} (valid : ¬nmeaHexDigitToValue digit < 0) :
    HexValue digit (nmeaHexDigitToValue digit).toNat := by
  rw [hexValue_iff]
  exact (Int.toNat_of_nonneg (Int.not_lt.mp valid)).symm

/-- Shifting and or-ing two digit values writes the number they denote. -/
theorem byteOfDigits {low l} (h : Nat) (hexLow : HexValue low l) :
    UInt8.ofNat ((h <<< 4) ||| l) = UInt8.ofNat (16 * h + l) := by
  rw [← Nat.shiftLeft_add_eq_or_of_lt hexLow.lt, Nat.shiftLeft_eq, Nat.mul_comm]

/-- What the source makes of two digits it accepts is the byte they write. -/
theorem byteOfDigits_iff {high low byte : UInt8} :
    (¬(nmeaHexDigitToValue high < 0 ∨ nmeaHexDigitToValue low < 0) ∧ byte = UInt8.ofNat
        (((nmeaHexDigitToValue high).toNat <<< 4) ||| (nmeaHexDigitToValue low).toNat)) ↔
      ∃ h l, HexValue high h ∧ HexValue low l ∧ byte = UInt8.ofNat (16 * h + l) := by
  constructor
  · intro accepted
    obtain ⟨digits, same⟩ := accepted
    obtain ⟨highDigit, lowDigit⟩ := not_or.mp digits
    have hexLow := hexValue_of_nonneg lowDigit
    rw [byteOfDigits _ hexLow] at same
    exact ⟨_, _, hexValue_of_nonneg highDigit, hexLow, same⟩
  · intro written
    obtain ⟨h, l, hexHigh, hexLow, same⟩ := written
    have highValue := (hexValue_iff high h).mp hexHigh
    have lowValue := (hexValue_iff low l).mp hexLow
    rw [highValue, lowValue, Int.toNat_natCast, Int.toNat_natCast, byteOfDigits h hexLow]
    exact ⟨by omega, same⟩

/-- Trimming stops where the declarative trimming does, reading only bytes it
    drops and the one it keeps. -/
theorem trimLineEnd_spec {sentence : List UInt8} {len : Nat} (inside : len ≤ sentence.length) :
    trimLineEnd sentence len = some (trimmed (sentence.take len)).length := by
  induction len with
  | zero => simp [trimLineEnd, trimmed]
  | succ len ih =>
      have here : len < sentence.length := inside
      have grown : sentence.take (len + 1) = sentence.take len ++ [sentence[len]] :=
        List.take_succ_eq_append_getElem here
      have shorter := ih (Nat.le_of_lt here)
      simp only [trimLineEnd, List.getElem?_eq_getElem here, Option.bind_eq_bind, Option.bind_some]
      by_cases ends : sentence[len] = carriageReturn ∨ sentence[len] = lineFeed
      · rw [if_pos ends, grown, shorter, trimmed, trimmed,
          List.rdropWhile_concat_pos _ _ _ (by simpa [isLineEnd] using ends)]
      · rw [if_neg ends, grown, trimmed,
          List.rdropWhile_concat_neg _ _ _ (by simpa [isLineEnd] using ends)]
        simp only [List.length_append, List.length_take, List.length_singleton,
          Nat.min_eq_left (Nat.le_of_lt here), Option.pure_def]

theorem trimmed_append_rest (buffer : List UInt8) : ∃ rest, buffer = trimmed buffer ++ rest :=
  ⟨_, (List.rdropWhile_append_rtakeWhile (p := isLineEnd)).symm⟩

theorem xorBytes_spec (before middle after : List UInt8) (checksum : UInt8) :
    xorBytes (before ++ middle ++ after) before.length middle.length checksum =
      some (middle.foldl (· ^^^ ·) checksum) := by
  induction middle generalizing before checksum with
  | nil => rfl
  | cons byte rest ih =>
      have later := ih (before ++ [byte]) (checksum ^^^ byte)
      simp only [List.append_assoc, List.cons_append, List.nil_append, List.length_append,
        List.length_singleton] at later
      simp [xorBytes, later]

/-- Where a list is cut at the first occurrence of an element is determined. -/
theorem firstSplit_unique {α : Type} {x : α} {before before' after after' : List α}
    (absent : x ∉ before) (absent' : x ∉ before')
    (same : before ++ x :: after = before' ++ x :: after') : before = before' ∧ after = after' := by
  induction before generalizing before' with
  | nil =>
      cases before' with
      | nil => exact ⟨rfl, (List.cons.inj same).2⟩
      | cons y rest => exact absurd (List.mem_cons.mpr (.inl (List.cons.inj same).1)) absent'
  | cons y rest ih =>
      cases before' with
      | nil => exact absurd (List.mem_cons.mpr (.inl (List.cons.inj same).1.symm)) absent
      | cons z rest' =>
          obtain ⟨rfl, rest_same⟩ := List.cons.inj same
          obtain ⟨rfl, rfl⟩ := ih (fun member => absent (List.mem_cons_of_mem _ member))
            (fun member => absent' (List.mem_cons_of_mem _ member)) rest_same
          exact ⟨rfl, rfl⟩

/-- A trimmed buffer has the shape of `ChecksumValid` in at most one way: the
    payload ends at the first `*`. -/
theorem checksumValid_iff {buffer payload after : List UInt8}
    (shape : trimmed buffer = dollar :: (payload ++ star :: after)) (absent : star ∉ payload) :
    ChecksumValid buffer ↔
      ∃ high low h l, after = [high, low] ∧ 6 ≤ payload.length ∧ HexValue high h ∧
        HexValue low l ∧ payload.foldl (· ^^^ ·) 0 = UInt8.ofNat (16 * h + l) := by
  constructor
  · rintro ⟨payload', high, low, h, l, shape', long, absent', hexHigh, hexLow, sum⟩
    rw [shape, List.cons.injEq] at shape'
    obtain ⟨rfl, rfl⟩ := firstSplit_unique absent absent' shape'.2
    exact ⟨high, low, h, l, rfl, long, hexHigh, hexLow, sum⟩
  · rintro ⟨high, low, h, l, rfl, long, hexHigh, hexLow, sum⟩
    exact ⟨payload, high, low, h, l, shape, long, absent, hexHigh, hexLow, sum⟩

theorem ChecksumValid.trimmed_length {buffer} (valid : ChecksumValid buffer) :
    10 ≤ (trimmed buffer).length := by
  obtain ⟨payload, high, low, h, l, shape, long, -⟩ := valid
  simp only [shape, List.length_cons, List.length_append, List.length_nil]
  omega

/-- A valid line starts with `$` and has a `*` after it. -/
theorem ChecksumValid.cons {buffer first tail} (valid : ChecksumValid buffer)
    (shape : trimmed buffer = first :: tail) : first = dollar ∧ star ∈ tail := by
  obtain ⟨payload, high, low, h, l, shape', -⟩ := valid
  rw [shape, List.cons.injEq] at shape'
  exact ⟨shape'.1, by simp [shape'.2]⟩

theorem checksumValid_digits {buffer payload : List UInt8} {high low : UInt8}
    (shape : trimmed buffer = dollar :: (payload ++ star :: [high, low])) (absent : star ∉ payload)
    (long : 6 ≤ payload.length) :
    ChecksumValid buffer ↔ ∃ h l, HexValue high h ∧ HexValue low l ∧
      payload.foldl (· ^^^ ·) 0 = UInt8.ofNat (16 * h + l) := by
  rw [checksumValid_iff shape absent]
  constructor
  · intro written
    obtain ⟨high', low', h, l, pair, -, hexHigh, hexLow, same⟩ := written
    cases pair
    exact ⟨h, l, hexHigh, hexLow, same⟩
  · intro written
    obtain ⟨h, l, hexHigh, hexLow, same⟩ := written
    exact ⟨high, low, h, l, rfl, long, hexHigh, hexLow, same⟩

theorem getElem?_behind {α : Type} (first : α) (middle after : List α) (offset : Nat) :
    (first :: (middle ++ after))[1 + middle.length + offset]? = after[offset]? := by
  rw [show 1 + middle.length + offset = (middle.length + offset) + 1 by omega,
    List.getElem?_cons_succ, List.getElem?_append_right (by omega), Nat.add_sub_cancel_left]

/-- The C checksum test decides `ChecksumValid` on the first `len` bytes and
    reads none outside them. -/
theorem nmeaChecksumOk_spec {sentence : List UInt8} {len : Nat} (inside : len ≤ sentence.length) :
    ∃ ok, nmeaChecksumOk sentence len = some ok ∧
      (ok = true ↔ ChecksumValid (sentence.take len)) := by
  obtain ⟨lineEnd, taken⟩ := trimmed_append_rest (sentence.take len)
  have whole : sentence = trimmed (sentence.take len) ++ (lineEnd ++ sentence.drop len) := by
    rw [← List.append_assoc, ← taken, List.take_append_drop]
  unfold nmeaChecksumOk
  rw [trimLineEnd_spec inside]
  generalize lineEnd ++ sentence.drop len = junk at whole
  generalize sentence.take len = buffer at whole
  simp only [Option.bind_eq_bind, Option.bind_some]
  have refuses (wrong : ¬ChecksumValid buffer) : false = true ↔ ChecksumValid buffer := by
    simpa using wrong
  by_cases short : (trimmed buffer).length < 10
  · exact ⟨false, if_pos short, refuses fun valid => absurd valid.trimmed_length (by omega)⟩
  rw [if_neg short]
  generalize shape : trimmed buffer = body at whole short ⊢
  subst whole
  cases body with
  | nil => simp at short
  | cons first tail =>
  simp only [List.cons_append, List.getElem?_cons_zero, Option.bind_some]
  by_cases start : first = dollar
  swap
  · exact ⟨false, if_pos start, refuses fun valid => start (valid.cons shape).1⟩
  subst start
  rw [if_neg (not_not.mpr rfl)]
  have counted : (dollar :: tail).length - 1 = tail.length := rfl
  rw [counted]
  by_cases present : star ∈ tail
  swap
  · have searched := Memory.memchr_absent [dollar] tail junk present
    simp only [List.cons_append, List.nil_append, List.length_singleton] at searched
    rw [searched]
    exact ⟨false, rfl, refuses fun valid => present (valid.cons shape).2⟩
  obtain ⟨payload, after, rfl, absent⟩ := List.eq_append_cons_of_mem present
  have inTail : payload.length < (payload ++ star :: after).length := by
    simp only [List.length_append, List.length_cons]; omega
  have searched := Memory.memchr_found [dollar] payload (after ++ junk) absent inTail
  simp only [List.cons_append, List.nil_append, List.length_singleton] at searched
  simp only [List.append_assoc, List.cons_append, searched, Option.bind_some]
  have distance : (dollar :: (payload ++ star :: after)).length - (1 + payload.length) =
      after.length + 1 := by
    simp only [List.length_cons, List.length_append]; omega
  rw [distance]
  by_cases twoDigits : after.length = 2
  swap
  · refine ⟨false, if_pos (by omega), refuses fun valid => ?_⟩
    obtain ⟨high, low, h, l, pair, -⟩ := (checksumValid_iff shape absent).mp valid
    rw [pair] at twoDigits
    exact twoDigits rfl
  obtain ⟨high, low, rfl⟩ := List.length_eq_two.mp twoDigits
  have long : 6 ≤ payload.length := by
    simp only [List.length_cons, List.length_append, List.length_nil] at short; omega
  have readHigh := getElem?_behind dollar payload (star :: high :: low :: junk) 1
  have readLow := getElem?_behind dollar payload (star :: high :: low :: junk) 2
  have sum := xorBytes_spec [dollar] payload (star :: high :: low :: junk) 0
  simp only [List.cons_append, List.nil_append, List.length_singleton] at sum
  have inner : 1 + payload.length - 1 = payload.length := by omega
  rw [checksumValid_digits shape absent long, ← byteOfDigits_iff]
  simp only [List.length_cons, List.length_nil, List.cons_append, List.nil_append, readHigh, readLow,
    List.getElem?_cons_succ, List.getElem?_cons_zero, Option.bind_some, inner, sum]
  rw [if_neg (by decide)]
  by_cases digits : nmeaHexDigitToValue high < 0 ∨ nmeaHexDigitToValue low < 0
  · exact ⟨false, if_pos digits, by simp [digits]⟩
  · exact ⟨_, if_neg digits, by rw [beq_iff_eq, and_iff_right digits]⟩

/-- Whatever lies behind a buffer, the C checksum test decides `ChecksumValid` and reads
    the buffer alone. -/
theorem checksum_test_exact (buffer behind : List UInt8) :
    ∃ ok, nmeaChecksumOk buffer buffer.length = some ok ∧
      nmeaChecksumOk (buffer ++ behind) buffer.length = some ok ∧ (ok = true ↔ ChecksumValid buffer) := by
  obtain ⟨ok, alone, decides⟩ := nmeaChecksumOk_spec (Nat.le_refl buffer.length)
  have inside : buffer.length ≤ (buffer ++ behind).length := by simp
  obtain ⟨ok', followed, decides'⟩ := nmeaChecksumOk_spec inside
  rw [List.take_length] at decides
  rw [List.take_left] at decides'
  have same : ok' = ok := Bool.eq_iff_iff.mpr (decides'.trans decides.symm)
  rw [same] at followed
  exact ⟨ok, alone, followed, decides⟩

theorem nmeaChecksumOk_iff (buffer : List UInt8) :
    nmeaChecksumOk buffer buffer.length = some true ↔ ChecksumValid buffer := by
  obtain ⟨ok, computed, decides⟩ := nmeaChecksumOk_spec (Nat.le_refl buffer.length)
  rw [List.take_length] at decides
  rw [computed, Option.some.injEq, decides]

instance : DecidablePred ChecksumValid := fun buffer =>
  decidable_of_iff _ (nmeaChecksumOk_iff buffer)

end EspGnss.Nmea
