import EspGnss.Nmea.Checksum

/-! # NMEA fields and the HDOP value

`nmeaGetFieldRange` finds a comma-separated field with one cursor loop,
`nmeaParseDecimalMilli` reads it as thousandths and `nmeaParseHdopMilli` applies
both to field 8 of a GGA line. Each is read loop by loop over a checked array
and then shown to compute a description of the trimmed line alone.
-/

namespace EspGnss.Nmea

open Foundation

/-- `NMEA_PREFIX_LEN` -/
def nmeaPrefixLen : Nat := 6
/-- `NMEA_TYPE_OFFSET` -/
def nmeaTypeOffset : Nat := 3

/-- `"GGA"` -/
def ggaType : List UInt8 := [0x47, 0x47, 0x41]
/-- `"RMC"` -/
def rmcType : List UInt8 := [0x52, 0x4D, 0x43]

/-- The cursor loop of `nmea_get_field_range`. `left` counts the bytes from
    `cursor` to `end`; the loop body also runs once with `cursor == end`. -/
def fieldScan (sentence : List UInt8) (fieldNumber : Nat) :
    (left cursor start currentField : Nat) → Option (Option (Nat × Nat))
  | 0, cursor, start, currentField =>
      if currentField = fieldNumber then
        if cursor - start > 0 then some (some (start, cursor - start)) else some none
      else some none
  | left + 1, cursor, start, currentField => do
      let byte ← sentence[cursor]?
      if byte = comma ∨ byte = star then
        if currentField = fieldNumber then
          if cursor - start > 0 then return some (start, cursor - start) else return none
        else if byte = star then return none
        else fieldScan sentence fieldNumber left (cursor + 1) (cursor + 1) (currentField + 1)
      else fieldScan sentence fieldNumber left (cursor + 1) start currentField

/-- `nmea_get_field_range(sentence, len, field_number, ..)`: the start and the
    length of the field, or `some none` for `false`. -/
def nmeaGetFieldRange (sentence : List UInt8) (len fieldNumber : Nat) :
    Option (Option (Nat × Nat)) := do
  let len ← trimLineEnd sentence len
  match ← Memory.memchr sentence comma 0 len with
  | none => return none
  | some cursor => fieldScan sentence fieldNumber (len - (cursor + 1)) (cursor + 1) (cursor + 1) 1

/-- `nmea_get_field_range` behind its trimming loop. -/
def fieldSearch (sentence : List UInt8) (len fieldNumber : Nat) : Option (Option (Nat × Nat)) := do
  match ← Memory.memchr sentence comma 0 len with
  | none => return none
  | some cursor => fieldScan sentence fieldNumber (len - (cursor + 1)) (cursor + 1) (cursor + 1) 1

theorem nmeaGetFieldRange_eq (sentence : List UInt8) (len fieldNumber : Nat) :
    nmeaGetFieldRange sentence len fieldNumber =
      (trimLineEnd sentence len).bind fun len => fieldSearch sentence len fieldNumber := rfl

/-- The value a 32-bit `int` holds after an operation with exact result `x`. -/
def cInt (x : Int) : Int := x.bmod (2 ^ 32)

/-- The local variables of `nmea_parse_decimal_milli`. -/
structure DecimalScan where
  integerPart : Int
  fractionalPart : Int
  fractionalDigits : Nat
  seenDot : Bool
  seenDigit : Bool
  deriving DecidableEq, Repr

def DecimalScan.start : DecimalScan := ⟨0, 0, 0, false, false⟩

/-- One pass through the digit loop; `none` is its `return false`. -/
def DecimalScan.next (scan : DecimalScan) (byte : UInt8) : Option DecimalScan :=
  if byte = dot then
    if scan.seenDot then none else some { scan with seenDot := true }
  else if byte < 0x30 ∨ byte > 0x39 then none
  else
    let digit : Int := (byte.toNat : Int) - 0x30
    if !scan.seenDot then
      some { scan with seenDigit := true, integerPart := cInt (cInt (scan.integerPart * 10) + digit) }
    else if scan.fractionalDigits < 3 then
      some { scan with
        seenDigit := true
        fractionalPart := cInt (cInt (scan.fractionalPart * 10) + digit)
        fractionalDigits := scan.fractionalDigits + 1 }
    else some { scan with seenDigit := true }

/-- The digit loop over `count` bytes from `start`. -/
def decimalScan (sentence : List UInt8) :
    (start count : Nat) → DecimalScan → Option (Option DecimalScan)
  | _, 0, scan => some (some scan)
  | start, count + 1, scan => do
      match scan.next (← sentence[start]?) with
      | none => return none
      | some scan => decimalScan sentence (start + 1) count scan

/-- `while (fractional_digits < 3) fractional_part *= 10` -/
def padMilli : (missing : Nat) → Int → Int
  | 0, fractionalPart => fractionalPart
  | missing + 1, fractionalPart => padMilli missing (cInt (fractionalPart * 10))

/-- What `nmea_parse_decimal_milli` does once the digit loop has ended. -/
def DecimalScan.value (scan : DecimalScan) : Option Int :=
  if !scan.seenDigit then none
  else some (cInt (cInt (scan.integerPart * 1000) +
    padMilli (3 - scan.fractionalDigits) scan.fractionalPart))

/-- `nmea_parse_decimal_milli(sentence + field, len, ..)` -/
def nmeaParseDecimalMilli (sentence : List UInt8) (field len : Nat) : Option (Option Int) := do
  match ← decimalScan sentence field len .start with
  | none => return none
  | some scan => return scan.value

/-- `nmea_parse_hdop_milli(sentence, len, ..)` -/
def nmeaParseHdopMilli (sentence : List UInt8) (len : Nat) : Option (Option Int) := do
  if len < nmeaPrefixLen then return none
  if (← sentence[0]?) ≠ dollar then return none
  if (← Memory.load sentence nmeaTypeOffset 3) ≠ ggaType then return none
  match ← nmeaGetFieldRange sentence len 8 with
  | none => return none
  | some (field, fieldLen) => nmeaParseDecimalMilli sentence field fieldLen

/-- The part of a line that is divided into fields: after the first comma, up
    to the first `*`. -/
def fieldArea (line : List UInt8) : List UInt8 :=
  (line.drop (line.idxOf comma + 1)).takeWhile (· ≠ star)

/-- Field `n`, counted from 1, of a trimmed line. -/
def lineField (line : List UInt8) (n : Nat) : Option (List UInt8) :=
  if comma ∈ line then ((fieldArea line).splitOn comma)[n - 1]?.filter (· ≠ []) else none

/-- Position and length of the piece `index` of `pieces` when the pieces are laid
    out from `start` with one separator between them; an empty piece is none. -/
def pieceRange : (start : Nat) → (pieces : List (List UInt8)) → (index : Nat) → Option (Nat × Nat)
  | _, [], _ => none
  | start, piece :: _, 0 => if piece = [] then none else some (start, piece.length)
  | start, piece :: rest, index + 1 => pieceRange (start + piece.length + 1) rest index

/-- Where `lineField` lies in the line. -/
def lineFieldRange (line : List UInt8) (n : Nat) : Option (Nat × Nat) :=
  if comma ∈ line then pieceRange (line.idxOf comma + 1) ((fieldArea line).splitOn comma) (n - 1)
  else none

/-- `range` is where the `n`th piece of the field area lies, and that piece is not empty. -/
structure IsFieldRange (line : List UInt8) (n : Nat) (range : Nat × Nat) : Prop where
  divided : comma ∈ line
  /-- Every earlier piece has a comma behind it. -/
  piece : ∃ before piece after, (fieldArea line).splitOn comma = before ++ piece :: after ∧
    before.length = n - 1 ∧ piece ≠ [] ∧
    range = (line.idxOf comma + 1 + (before.map fun earlier => earlier.length + 1).sum, piece.length)

theorem splitOn_cons (separator byte : UInt8) (rest : List UInt8) :
    (byte :: rest).splitOn separator =
      if byte = separator then [] :: rest.splitOn separator
      else (rest.splitOn separator).modifyHead (byte :: ·) := by
  by_cases same : byte = separator <;>
    simp [List.splitOn, List.splitOnP_cons_eq_if_modifyHead, same]

theorem pieceRange_head (start : Nat) (piece : List UInt8) (rest : List (List UInt8)) :
    pieceRange start (piece :: rest) 0 =
      if piece.length > 0 then some (start, piece.length) else none := by
  cases piece <;> simp [pieceRange]

/-- What the cursor loop returns at the end of the piece that it looks for. -/
theorem returned_piece (start : Nat) (piece : List UInt8) (rest : List (List UInt8)) :
    (if piece.length > 0 then some (some (start, piece.length)) else some none) =
      some (pieceRange start (piece :: rest) 0) := by
  rw [pieceRange_head]
  split <;> rfl

theorem pieceRange_later (start : Nat) (piece : List UInt8) (rest : List (List UInt8)) {index : Nat}
    (later : 0 < index) :
    pieceRange start (piece :: rest) index =
      pieceRange (start + piece.length + 1) rest (index - 1) := by
  obtain ⟨earlier, rfl⟩ := Nat.exists_eq_succ_of_ne_zero (Nat.ne_of_gt later)
  rfl

/-- The cursor loop returns the piece that `current`, read so far, and the bytes
    still ahead of the cursor belong to. -/
theorem fieldScan_spec (before current rest after : List UInt8) (fieldNumber currentField : Nat)
    (notPast : currentField ≤ fieldNumber) :
    fieldScan (before ++ current ++ rest ++ after) fieldNumber rest.length
        (before.length + current.length) before.length currentField =
      some (pieceRange before.length
        (((rest.takeWhile (· ≠ star)).splitOn comma).modifyHead (current ++ ·))
        (fieldNumber - currentField)) := by
  induction rest generalizing before current currentField with
  | nil =>
      simp only [List.length_nil, fieldScan, Nat.add_sub_cancel_left, List.takeWhile_nil,
        List.splitOn_nil, List.modifyHead_cons, List.append_nil]
      by_cases here : currentField = fieldNumber
      · subst here
        rw [if_pos rfl, Nat.sub_self]
        exact returned_piece _ _ _
      · rw [if_neg here, pieceRange_later _ _ _ (by omega), pieceRange]
  | cons byte rest ih =>
      have read : (before ++ current ++ byte :: rest ++ after)[before.length + current.length]? =
          some byte := by simp
      simp only [List.length_cons, fieldScan, read, Option.bind_eq_bind, Option.bind_some,
        Nat.add_sub_cancel_left]
      by_cases atStar : byte = star
      · subst atStar
        simp only [or_true, if_true, List.takeWhile_cons_of_neg, ne_eq, not_true_eq_false,
          decide_false, Bool.false_eq_true, not_false_eq_true, List.splitOn_nil,
          List.modifyHead_cons, List.append_nil]
        by_cases here : currentField = fieldNumber
        · subst here
          rw [if_pos rfl, Nat.sub_self]
          exact returned_piece _ _ _
        · rw [if_neg here, pieceRange_later _ _ _ (by omega), pieceRange]
          rfl
      have kept : (byte :: rest).takeWhile (· ≠ star) = byte :: rest.takeWhile (· ≠ star) :=
        List.takeWhile_cons_of_pos (by simpa using atStar)
      rw [kept, splitOn_cons]
      by_cases atComma : byte = comma
      · subst atComma
        have apart : ¬ comma = star := by decide
        simp only [true_or, if_true, List.modifyHead_cons, List.append_nil, if_neg apart]
        by_cases here : currentField = fieldNumber
        · subst here
          rw [if_pos rfl, Nat.sub_self]
          exact returned_piece _ _ _
        · have later := ih (before ++ current ++ [comma]) [] (currentField + 1) (by omega)
          simp only [List.append_nil, List.append_assoc, List.cons_append, List.nil_append,
            List.length_append, List.length_singleton, List.length_nil, Nat.add_zero] at later
          rw [if_neg here, pieceRange_later _ _ _ (by omega), Nat.sub_sub]
          have unchanged : ((rest.takeWhile (· ≠ star)).splitOn comma).modifyHead (fun x => x) =
              (rest.takeWhile (· ≠ star)).splitOn comma := List.modifyHead_id ▸ rfl
          rw [unchanged] at later
          simpa only [List.append_assoc, List.cons_append, Nat.add_assoc] using later
      · have later := ih before (current ++ [byte]) currentField notPast
        simp only [List.append_assoc, List.cons_append, List.nil_append, List.length_append,
          List.length_singleton] at later
        rw [if_neg (not_or.mpr ⟨atComma, atStar⟩), if_neg atComma, List.modifyHead_modifyHead]
        simpa only [List.append_assoc, List.cons_append, Nat.add_assoc, Function.comp_def] using later

theorem pieceRange_slice (before after : List UInt8) (pieces : List (List UInt8)) (index : Nat) :
    (pieceRange before.length pieces index).map (fun range =>
        ((before ++ [comma].intercalate pieces ++ after).drop range.1).take range.2) =
      pieces[index]?.filter (· ≠ []) := by
  induction pieces generalizing before index with
  | nil => simp [pieceRange]
  | cons piece rest ih =>
      have layout : ∃ remainder, [comma].intercalate (piece :: rest) = piece ++ remainder := by
        cases rest with
        | nil => exact ⟨[], by simp⟩
        | cons next others => exact ⟨comma :: [comma].intercalate (next :: others), by simp⟩
      cases index with
      | zero =>
          obtain ⟨remainder, layout⟩ := layout
          cases piece with
          | nil => simp [pieceRange, Option.filter]
          | cons byte bytes => simp [pieceRange, layout, Option.filter]
      | succ index =>
          cases rest with
          | nil => simp [pieceRange]
          | cons next others =>
              have later := ih (before ++ piece ++ [comma]) index
              simp only [List.length_append, List.length_singleton] at later
              simpa only [pieceRange, List.intercalate_cons_cons, List.append_assoc,
                List.getElem?_cons_succ] using later

/-- A field is what its range cuts out of the line. -/
theorem lineField_eq_slice (line after : List UInt8) (n : Nat) :
    lineField line n =
      (lineFieldRange line n).map fun range => ((line ++ after).drop range.1).take range.2 := by
  by_cases present : comma ∈ line
  swap
  · rw [lineField, lineFieldRange, if_neg present, if_neg present, Option.map_none]
  rw [lineField, lineFieldRange, if_pos present, if_pos present, fieldArea]
  obtain ⟨before, rest, rfl, absent⟩ := List.eq_append_cons_of_mem present
  have position : (before ++ comma :: rest).idxOf comma = before.length := by
    rw [List.idxOf_append_of_notMem absent, List.idxOf_cons_self, Nat.add_zero]
  rw [position, ← List.drop_drop, List.drop_left, List.drop_succ_cons, List.drop_zero]
  have sliced := pieceRange_slice (before ++ [comma]) (rest.dropWhile (· ≠ star) ++ after)
    ((rest.takeWhile (· ≠ star)).splitOn comma) (n - 1)
  rw [List.intercalate_splitOn, List.length_append, List.length_singleton] at sliced
  rw [← sliced]
  have layout : before ++ comma :: rest ++ after =
      before ++ [comma] ++ rest.takeWhile (· ≠ star) ++ (rest.dropWhile (· ≠ star) ++ after) := by
    simp only [List.append_assoc, List.cons_append, List.nil_append]
    rw [← List.append_assoc (List.takeWhile _ _), List.takeWhile_append_dropWhile]
  rw [layout]

/-- The search looks only at the line and reads nothing behind it. -/
theorem fieldSearch_spec (line behind : List UInt8) {fieldNumber : Nat} (counted : 1 ≤ fieldNumber) :
    fieldSearch (line ++ behind) line.length fieldNumber = some (lineFieldRange line fieldNumber) := by
  rw [fieldSearch, lineFieldRange]
  by_cases present : comma ∈ line
  swap
  · have searched := Memory.memchr_absent [] line behind present
    simp only [List.nil_append, List.length_nil] at searched
    rw [searched, if_neg present]
    rfl
  rw [if_pos present]
  obtain ⟨before, after, rfl, absent⟩ := List.eq_append_cons_of_mem present
  have counting : before.length < (before ++ comma :: after).length := by
    simp only [List.length_append, List.length_cons]; omega
  have searched := Memory.memchr_found [] before (after ++ behind) absent counting
  simp only [List.nil_append, List.length_nil, Nat.zero_add] at searched
  have left : (before ++ comma :: after).length - (before.length + 1) = after.length := by
    simp only [List.length_append, List.length_cons]; omega
  have position : (before ++ comma :: after).idxOf comma = before.length := by
    rw [List.idxOf_append_of_notMem absent, List.idxOf_cons_self, Nat.add_zero]
  have area : fieldArea (before ++ comma :: after) = after.takeWhile (· ≠ star) := by
    rw [fieldArea, position, ← List.drop_drop, List.drop_left]
    rfl
  have scanned := fieldScan_spec (before ++ [comma]) [] after behind fieldNumber 1 counted
  have unchanged : ((after.takeWhile (· ≠ star)).splitOn comma).modifyHead (fun x => x) =
      (after.takeWhile (· ≠ star)).splitOn comma := List.modifyHead_id ▸ rfl
  simp only [List.append_nil, List.nil_append, List.append_assoc, List.cons_append,
    List.length_append, List.length_singleton, List.length_nil, Nat.add_zero, unchanged] at scanned
  rw [position, area, ← scanned]
  simp only [List.append_assoc, List.cons_append, searched, Option.bind_eq_bind, Option.bind_some, left]

/-- The field search looks only at the trimmed line, reads nothing beyond it and
    returns where the field lies. -/
theorem nmeaGetFieldRange_spec {sentence : List UInt8} {len : Nat} (fieldNumber : Nat)
    (inside : len ≤ sentence.length) (counted : 1 ≤ fieldNumber) :
    nmeaGetFieldRange sentence len fieldNumber =
      some (lineFieldRange (trimmed (sentence.take len)) fieldNumber) := by
  obtain ⟨lineEnd, taken⟩ := trimmed_append_rest (sentence.take len)
  have whole : sentence = trimmed (sentence.take len) ++ (lineEnd ++ sentence.drop len) := by
    rw [← List.append_assoc, ← taken, List.take_append_drop]
  rw [nmeaGetFieldRange_eq, trimLineEnd_spec inside, Option.bind_some]
  generalize lineEnd ++ sentence.drop len = behind at whole
  generalize trimmed (sentence.take len) = line at whole ⊢
  subst whole
  exact fieldSearch_spec line behind counted

theorem pieceRange_eq_some_iff {start : Nat} {pieces : List (List UInt8)} {index : Nat} {range : Nat × Nat} :
    pieceRange start pieces index = some range ↔
      ∃ before piece after, pieces = before ++ piece :: after ∧ before.length = index ∧ piece ≠ [] ∧
        range = (start + (before.map fun earlier => earlier.length + 1).sum, piece.length) := by
  induction pieces generalizing start index with
  | nil => simp [pieceRange]
  | cons first rest ih =>
      cases index with
      | zero =>
          rw [pieceRange]
          constructor
          · intro found
            split at found
            · cases found
            · rename_i nonempty
              exact ⟨[], first, rest, rfl, rfl, nonempty, (Option.some.inj found).symm⟩
          · intro located
            obtain ⟨before, piece, after, split, none, nonempty, rfl⟩ := located
            obtain rfl := List.eq_nil_of_length_eq_zero none
            cases split
            exact if_neg nonempty
      | succ index =>
          rw [pieceRange, ih]
          constructor
          · intro located
            obtain ⟨before, piece, after, rfl, rfl, nonempty, rfl⟩ := located
            refine ⟨first :: before, piece, after, rfl, rfl, nonempty, ?_⟩
            simp only [List.map_cons, List.sum_cons, Nat.add_assoc]
          · intro located
            obtain ⟨before, piece, after, split, count, nonempty, rfl⟩ := located
            cases before with
            | nil => cases count
            | cons _ before =>
                cases split
                refine ⟨before, piece, after, rfl, Nat.succ.inj count, nonempty, ?_⟩
                simp only [List.map_cons, List.sum_cons, Nat.add_assoc]

theorem lineFieldRange_eq_some_iff {line : List UInt8} {n : Nat} {range : Nat × Nat} :
    lineFieldRange line n = some range ↔ IsFieldRange line n range := by
  rw [lineFieldRange]
  by_cases divided : comma ∈ line
  · rw [if_pos divided, pieceRange_eq_some_iff]
    exact ⟨IsFieldRange.mk divided, IsFieldRange.piece⟩
  · rw [if_neg divided]
    constructor
    · intro impossible
      cases impossible
    · intro range
      exact absurd range.divided divided

/-- Whatever lies behind a buffer, the field search returns exactly where the field lies. It
    reads the buffer alone, and the trimmed line alone once it has trimmed it. -/
theorem field_range_exact {n : Nat} (counted : 1 ≤ n) (buffer behind : List UInt8) :
    ∃ found, nmeaGetFieldRange buffer buffer.length n = some found ∧
      nmeaGetFieldRange (buffer ++ behind) buffer.length n = some found ∧
      trimLineEnd buffer buffer.length = some (trimmed buffer).length ∧
      fieldSearch (trimmed buffer) (trimmed buffer).length n = some found ∧
      ∀ range, found = some range ↔ IsFieldRange (trimmed buffer) n range := by
  have alone := nmeaGetFieldRange_spec n (Nat.le_refl buffer.length) counted
  have inside : buffer.length ≤ (buffer ++ behind).length := by simp
  have followed := nmeaGetFieldRange_spec n inside counted
  have trims := trimLineEnd_spec (Nat.le_refl buffer.length)
  have searches := fieldSearch_spec (trimmed buffer) [] counted
  rw [List.take_length] at alone trims
  rw [List.take_left] at followed
  rw [List.append_nil] at searches
  exact ⟨_, alone, followed, trims, searches, fun range => lineFieldRange_eq_some_iff⟩

/-- `$,,5*` with its line end. -/
def sampleFields : List UInt8 := [dollar, comma, comma, 0x35, star, carriageReturn, lineFeed]

theorem sample_field_found : nmeaGetFieldRange sampleFields sampleFields.length 2 = some (some (3, 1)) ∧
    IsFieldRange (trimmed sampleFields) 2 (3, 1) := by
  obtain ⟨found, alone, -, -, -, located⟩ := @field_range_exact 2 (by decide) sampleFields []
  have computed : nmeaGetFieldRange sampleFields sampleFields.length 2 = some (some (3, 1)) := by decide +kernel
  rw [computed, Option.some.injEq] at alone
  exact ⟨computed, (located (3, 1)).mp alone.symm⟩

/-- In an array that ends with the trimmed line, reading the line end to drop it leaves the array. -/
theorem line_end_read : ¬ ∀ (buffer : List UInt8) (n : Nat), 1 ≤ n →
    (nmeaGetFieldRange (trimmed buffer) buffer.length n).isSome := by
  intro claimed
  have inside := claimed sampleFields 2 (by decide)
  have outside : nmeaGetFieldRange (trimmed sampleFields) sampleFields.length 2 = none := by decide +kernel
  rw [outside] at inside
  cases inside

/-- A decimal number in a field: digits with at most one dot, at least one digit. -/
def IsDecimal (field : List UInt8) : Prop :=
  (∀ byte ∈ field, byte = dot ∨ (0x30 ≤ byte ∧ byte ≤ 0x39)) ∧
    field.count dot ≤ 1 ∧ ∃ byte ∈ field, byte ≠ dot

instance (field : List UInt8) : Decidable (IsDecimal field) :=
  inferInstanceAs (Decidable (_ ∧ _ ∧ _))

/-- The value in thousandths that the C loop computes for a field. -/
def decimalMilli (field : List UInt8) : Option Int :=
  (field.foldlM DecimalScan.next .start).bind DecimalScan.value

theorem decimalScan_spec (before middle after : List UInt8) (scan : DecimalScan) :
    decimalScan (before ++ middle ++ after) before.length middle.length scan =
      some (middle.foldlM DecimalScan.next scan) := by
  induction middle generalizing before scan with
  | nil => rfl
  | cons byte rest ih =>
      have read : (before ++ byte :: rest ++ after)[before.length]? = some byte := by simp
      simp only [List.length_cons, decimalScan, read, Option.bind_eq_bind, Option.bind_some,
        List.foldlM_cons]
      cases advanced : scan.next byte with
      | none => rfl
      | some scan' =>
          have later := ih (before ++ [byte]) scan'
          simp only [List.append_assoc, List.cons_append, List.nil_append, List.length_append,
            List.length_singleton] at later
          simpa only [List.append_assoc, List.cons_append, Option.bind_some] using later

theorem nmeaParseDecimalMilli_spec {sentence : List UInt8} {field len : Nat}
    (inside : field + len ≤ sentence.length) :
    nmeaParseDecimalMilli sentence field len =
      some (decimalMilli ((sentence.drop field).take len)) := by
  have starts : (sentence.take field).length = field := by
    rw [List.length_take]; omega
  have counts : ((sentence.drop field).take len).length = len := by
    rw [List.length_take, List.length_drop]; omega
  have whole : sentence =
      sentence.take field ++ (sentence.drop field).take len ++ (sentence.drop field).drop len := by
    rw [List.append_assoc, List.take_append_drop, List.take_append_drop]
  have scanned := decimalScan_spec (sentence.take field) ((sentence.drop field).take len)
    ((sentence.drop field).drop len) .start
  rw [starts, counts, ← whole] at scanned
  rw [nmeaParseDecimalMilli, scanned, decimalMilli]
  simp only [Option.bind_eq_bind, Option.bind_some]
  cases ((sentence.drop field).take len).foldlM DecimalScan.next .start <;> rfl

theorem DecimalScan.next_dot (scan : DecimalScan) :
    scan.next dot = if scan.seenDot then none else some { scan with seenDot := true } := by
  rw [DecimalScan.next, if_pos rfl]

theorem DecimalScan.next_digit (scan : DecimalScan) {byte : UInt8} (notDot : byte ≠ dot)
    (digit : 0x30 ≤ byte ∧ byte ≤ 0x39) :
    ∃ scan', scan.next byte = some scan' ∧ scan'.seenDigit = true ∧ scan'.seenDot = scan.seenDot := by
  have accepted : ¬ (byte < 0x30 ∨ byte > 0x39) := by
    simpa only [not_or, UInt8.not_lt] using digit
  rw [DecimalScan.next, if_neg notDot, if_neg accepted]
  dsimp only
  split
  · exact ⟨_, rfl, rfl, rfl⟩
  · split <;> exact ⟨_, rfl, rfl, rfl⟩

theorem DecimalScan.next_other (scan : DecimalScan) {byte : UInt8} (notDot : byte ≠ dot)
    (notDigit : ¬ (0x30 ≤ byte ∧ byte ≤ 0x39)) : scan.next byte = none := by
  have rejected : byte < 0x30 ∨ byte > 0x39 := by
    rcases not_and_or.mp notDigit with low | high
    · exact .inl (UInt8.not_le.mp low)
    · exact .inr (UInt8.not_le.mp high)
  rw [DecimalScan.next, if_neg notDot, if_pos rejected]

/-- The digit loop runs to its end on digits with at most one dot in all. -/
theorem decimalFold_isSome_iff (field : List UInt8) (scan : DecimalScan) :
    (field.foldlM DecimalScan.next scan).isSome ↔
      (∀ byte ∈ field, byte = dot ∨ (0x30 ≤ byte ∧ byte ≤ 0x39)) ∧
        field.count dot + scan.seenDot.toNat ≤ 1 := by
  induction field generalizing scan with
  | nil => cases scan.seenDot <;> simp
  | cons byte rest ih =>
      rw [List.foldlM_cons, List.forall_mem_cons, List.count_cons]
      by_cases isDot : byte = dot
      · subst isDot
        rw [scan.next_dot]
        cases seen : scan.seenDot with
        | true => rw [if_pos rfl]; simp
        | false =>
            have later := ih { scan with seenDot := true }
            simpa using later
      · by_cases digit : 0x30 ≤ byte ∧ byte ≤ 0x39
        · obtain ⟨scan', advanced, -, sameDot⟩ := scan.next_digit isDot digit
          have later := ih scan'
          rw [sameDot] at later
          simpa [advanced, isDot, digit] using later
        · have stopped := scan.next_other isDot digit
          have outside : ¬ (byte = dot ∨ (0x30 ≤ byte ∧ byte ≤ 0x39)) := not_or.mpr ⟨isDot, digit⟩
          simp only [stopped, outside, Option.bind_eq_bind, Option.bind_none, Option.isSome_none,
            Bool.false_eq_true, false_and]

/-- The loop has seen a digit when it ends exactly if the field had one. -/
theorem decimalFold_seenDigit {field : List UInt8} {scan last : DecimalScan}
    (ended : field.foldlM DecimalScan.next scan = some last) :
    last.seenDigit = (scan.seenDigit || field.any (· ≠ dot)) := by
  induction field generalizing scan with
  | nil =>
      obtain rfl : scan = last := by simpa using ended
      simp
  | cons byte rest ih =>
      rw [List.foldlM_cons, Option.bind_eq_bind, Option.bind_eq_some_iff] at ended
      obtain ⟨scan', advanced, continued⟩ := ended
      rw [ih continued]
      by_cases isDot : byte = dot
      · subst isDot
        rw [scan.next_dot] at advanced
        cases seen : scan.seenDot with
        | true => simp [seen] at advanced
        | false =>
            simp only [seen, Bool.false_eq_true, if_false, Option.some.injEq] at advanced
            subst advanced
            simp
      · by_cases digit : 0x30 ≤ byte ∧ byte ≤ 0x39
        · obtain ⟨after, same, sawDigit, -⟩ := scan.next_digit isDot digit
          rw [advanced, Option.some.injEq] at same
          subst same
          simp [sawDigit, isDot]
        · rw [scan.next_other isDot digit] at advanced
          cases advanced

theorem decimalMilli_isSome_iff (field : List UInt8) :
    (decimalMilli field).isSome ↔ IsDecimal field := by
  have accepted := decimalFold_isSome_iff field .start
  unfold decimalMilli IsDecimal
  cases ended : field.foldlM DecimalScan.next .start with
  | none =>
      rw [ended] at accepted
      simp only [Option.bind_none, Option.isSome_none, Bool.false_eq_true, false_iff]
      rintro ⟨digits, dots, -⟩
      exact Bool.false_ne_true (accepted.mpr ⟨digits, dots⟩)
  | some last =>
      rw [ended] at accepted
      obtain ⟨digits, dots⟩ := accepted.mp rfl
      have saw := decimalFold_seenDigit ended
      have dots : field.count dot ≤ 1 := dots
      have someDigit : last.seenDigit = true ↔ ∃ byte ∈ field, byte ≠ dot := by
        simp [saw, DecimalScan.start]
      rw [Option.bind_some, DecimalScan.value]
      cases seen : last.seenDigit with
      | false =>
          rw [seen] at someDigit
          simp only [Bool.not_false, if_true, Option.isSome_none, Bool.false_eq_true, false_iff]
          rintro ⟨-, -, digit⟩
          exact Bool.false_ne_true (someDigit.mpr digit)
      | true => simpa using ⟨digits, dots, someDigit.mp seen⟩

/-- Bytes 3 to 5 of a line. -/
def lineType (line : List UInt8) : List UInt8 := (line.drop nmeaTypeOffset).take 3

/-- The HDOP value of a line: field 8 of a GGA line read in thousandths. -/
def hdopMilli (line : List UInt8) : Option Int :=
  if nmeaPrefixLen ≤ line.length ∧ line.head? = some dollar ∧ lineType line = ggaType then
    (lineField (trimmed line) 8).bind decimalMilli
  else none

theorem pieceRange_length {start : Nat} {pieces : List (List UInt8)} {index : Nat}
    {range : Nat × Nat} (found : pieceRange start pieces index = some range) :
    0 < range.2 ∧ ∃ piece, pieces[index]? = some piece ∧ piece.length = range.2 := by
  induction pieces generalizing start index with
  | nil => simp [pieceRange] at found
  | cons piece rest ih =>
      cases index with
      | zero =>
          rw [pieceRange_head] at found
          split at found
          · rename_i long
            obtain rfl := Option.some.inj found
            exact ⟨long, piece, rfl, rfl⟩
          · cases found
      | succ index => exact ih found

/-- A field lies within its line. -/
theorem lineFieldRange_inside {line : List UInt8} {n : Nat} {range : Nat × Nat}
    (found : lineFieldRange line n = some range) : range.1 + range.2 ≤ line.length := by
  have sliced := lineField_eq_slice line [] n
  rw [found, Option.map_some, List.append_nil] at sliced
  rw [lineFieldRange] at found
  rw [lineField] at sliced
  split at found
  · rename_i present
    obtain ⟨long, piece, same, sized⟩ := pieceRange_length found
    have nonempty : piece ≠ [] := List.ne_nil_of_length_pos (sized ▸ long)
    rw [if_pos present, same, Option.filter, if_pos (by simpa using nonempty), Option.some.injEq] at sliced
    have cut := congrArg List.length sliced
    rw [sized, List.length_take, List.length_drop] at cut
    omega
  · cases found

/-- `memcmp` on bytes 3 to 5 of a line that is long enough. -/
theorem load_lineType {sentence : List UInt8} {len : Nat} (inside : len ≤ sentence.length)
    (long : nmeaPrefixLen ≤ len) :
    Memory.load sentence nmeaTypeOffset 3 = some (lineType (sentence.take len)) := by
  simp only [nmeaPrefixLen] at long
  rw [Memory.load_inside (by simp only [nmeaTypeOffset]; omega), lineType, List.drop_take,
    List.take_take, Nat.min_eq_left (by simp only [nmeaTypeOffset]; omega)]

theorem nmeaParseHdopMilli_spec {sentence : List UInt8} {len : Nat} (inside : len ≤ sentence.length) :
    nmeaParseHdopMilli sentence len = some (hdopMilli (sentence.take len)) := by
  have taken : (sentence.take len).length = len := List.length_take_of_le inside
  rw [nmeaParseHdopMilli, hdopMilli, taken]
  by_cases short : len < nmeaPrefixLen
  · rw [if_pos short, if_neg (fun whole => absurd whole.1 (by omega))]
    rfl
  have long : nmeaPrefixLen ≤ len := by omega
  have readFirst : sentence[0]? = (sentence.take len).head? := by
    rw [List.head?_eq_getElem?,
      List.getElem?_take_of_lt (by simp only [nmeaPrefixLen] at long; omega)]
  obtain ⟨first, isFirst⟩ : ∃ first, (sentence.take len).head? = some first := by
    rw [List.head?_eq_getElem?]
    exact ⟨_, List.getElem?_eq_getElem (by simp only [nmeaPrefixLen] at long; omega)⟩
  have readType := load_lineType inside long
  simp only [if_neg short, readFirst, isFirst, readType, Option.bind_eq_bind, Option.bind_some,
    Option.some.injEq, long, true_and]
  by_cases start : first = dollar
  swap
  · rw [if_pos start, if_neg (fun both => start both.1)]
    rfl
  rw [if_neg (not_not.mpr start)]
  by_cases isGga : lineType (sentence.take len) = ggaType
  swap
  · rw [if_pos isGga, if_neg (fun both => isGga both.2)]
    rfl
  rw [if_neg (not_not.mpr isGga), if_pos ⟨start, isGga⟩, nmeaGetFieldRange_spec 8 inside (by decide)]
  obtain ⟨lineEnd, split⟩ := trimmed_append_rest (sentence.take len)
  have whole : trimmed (sentence.take len) ++ (lineEnd ++ sentence.drop len) = sentence := by
    rw [← List.append_assoc, ← split, List.take_append_drop]
  have sliced := lineField_eq_slice (trimmed (sentence.take len)) (lineEnd ++ sentence.drop len) 8
  rw [whole] at sliced
  rw [sliced, Option.bind_some]
  cases found : lineFieldRange (trimmed (sentence.take len)) 8 with
  | none => rfl
  | some range =>
      have within : range.1 + range.2 ≤ sentence.length := by
        have := lineFieldRange_inside found
        rw [← whole, List.length_append]
        omega
      exact nmeaParseDecimalMilli_spec within

end EspGnss.Nmea
