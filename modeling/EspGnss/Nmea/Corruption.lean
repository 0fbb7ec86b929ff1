import EspGnss.Nmea.Line

/-! # One corrupted byte

A valid line that reaches the parser with one byte replaced leaves the pairing state as
it was. The checksum catches a replaced payload byte; every other position is caught by
the shape of the line.
-/

namespace EspGnss.Nmea

open Foundation

/-- A line of the receiver: `$payload*hh` with its line end. -/
structure NmeaLine where
  payload : List UInt8
  high : UInt8
  low : UInt8
  plain : ∀ byte ∈ payload, byte ≠ dollar ∧ byte ≠ star ∧ byte ≠ lineFeed

namespace NmeaLine

def bytes (line : NmeaLine) : List UInt8 :=
  dollar :: (line.payload ++ [star, line.high, line.low, carriageReturn, lineFeed])

end NmeaLine

/-- `byte` is the hexadecimal letter `digit` in the other case. -/
def FlipsHexCase (digit byte : UInt8) : Prop :=
  (0x41 ≤ digit ∧ digit ≤ 0x46 ∧ byte = digit + 0x20) ∨
    (0x61 ≤ digit ∧ digit ≤ 0x66 ∧ byte + 0x20 = digit)

instance (digit byte : UInt8) : Decidable (FlipsHexCase digit byte) :=
  inferInstanceAs (Decidable (_ ∨ _))

/-- The replacements at position `i` that keep a line valid: a checksum letter in the other
    case, and a line feed for the CR. -/
def NmeaLine.Tolerated (line : NmeaLine) (i : Nat) (byte : UInt8) : Prop :=
  (i = line.payload.length + 2 ∧ FlipsHexCase line.high byte) ∨
    (i = line.payload.length + 3 ∧ FlipsHexCase line.low byte) ∨
    (i = line.payload.length + 4 ∧ byte = lineFeed)

instance (line : NmeaLine) (i : Nat) (byte : UInt8) : Decidable (line.Tolerated i byte) :=
  inferInstanceAs (Decidable (_ ∨ _ ∨ _))

/-- The parser emits nothing for these bytes and keeps what it had paired. -/
def NmeaParserState.Ignores (inputEpoch : UInt32) (state : NmeaParserState) (bytes : List UInt8) : Prop :=
  ∃ after, state.feedAll inputEpoch bytes = (after, []) ∧
    after.hasPendingGga = state.hasPendingGga ∧ after.pendingGga = state.pendingGga ∧
    after.pendingGgaHdopMilli = state.pendingGgaHdopMilli

theorem FlipsHexCase.of_values {digit byte : UInt8} {value : Nat} (left : HexValue digit value)
    (right : HexValue byte value) (other : byte ≠ digit) : FlipsHexCase digit byte := by
  have table : ∀ value < 16, ∀ digits ∈ hexDigits, ∀ digits' ∈ hexDigits, ∀ digit ∈ digits[value]?,
      ∀ byte ∈ digits'[value]?, byte ≠ digit → FlipsHexCase digit byte := by decide +kernel
  obtain ⟨digits, member, found⟩ := left
  obtain ⟨digits', member', found'⟩ := right
  exact table value (HexValue.lt ⟨digits, member, found⟩) digits member digits' member' digit found byte
    found' other

theorem HexValue.plain {digit : UInt8} {value : Nat} (hex : HexValue digit value) :
    digit ≠ dollar ∧ digit ≠ star ∧ digit ≠ lineFeed := by
  have table : ∀ value < 16, ∀ digits ∈ hexDigits, ∀ digit ∈ digits[value]?,
      digit ≠ dollar ∧ digit ≠ star ∧ digit ≠ lineFeed := by decide +kernel
  obtain ⟨digits, member, found⟩ := hex
  exact table value (HexValue.lt ⟨digits, member, found⟩) digits member digit found

/-- The checksum of a payload determines each of its bytes from the others. -/
theorem foldl_xor_replace (before after : List UInt8) {byte byte' : UInt8}
    (same : (before ++ byte :: after).foldl (· ^^^ ·) 0 = (before ++ byte' :: after).foldl (· ^^^ ·) 0) :
    byte = byte' := by
  have pulled (start : UInt8) : after.foldl (· ^^^ ·) start = start ^^^ after.foldl (· ^^^ ·) 0 := by
    have assoc : @Std.Associative UInt8 (· ^^^ ·) := ⟨UInt8.xor_assoc⟩
    have pull := @List.foldl_assoc _ (· ^^^ ·) assoc after start 0
    simpa using pull
  rw [List.foldl_append, List.foldl_append, List.foldl_cons, List.foldl_cons, pulled, pulled (_ ^^^ byte'),
    UInt8.xor_left_inj, UInt8.xor_right_inj] at same
  exact same

/-- What a valid buffer has after its first `*`. -/
theorem ChecksumValid.digits {payload after : List UInt8}
    (valid : ChecksumValid (dollar :: (payload ++ star :: after))) (absent : star ∉ payload) :
    ∃ high low h l rest, after = high :: low :: rest ∧ 6 ≤ payload.length ∧ HexValue high h ∧
      HexValue low l ∧ payload.foldl (· ^^^ ·) 0 = UInt8.ofNat (16 * h + l) := by
  obtain ⟨lineEnd, split⟩ := trimmed_append_rest (dollar :: (payload ++ star :: after))
  obtain ⟨payload', high, low, h, l, shape, long, absent', hexHigh, hexLow, sum⟩ := valid
  rw [shape, List.cons_append, List.append_assoc] at split
  obtain ⟨rfl, rfl⟩ := firstSplit_unique absent absent' (List.cons.inj split).2
  exact ⟨high, low, h, l, lineEnd, rfl, long, hexHigh, hexLow, sum⟩

/-- A line whose last byte before its end is kept is only valid when two digits follow
    its `*`. -/
theorem ChecksumValid.two_digits {payload after lineEnd : List UInt8} {last : UInt8}
    (valid : ChecksumValid (dollar :: (payload ++ star :: (after ++ [last])) ++ lineEnd))
    (absent : star ∉ payload) (kept : isLineEnd last = false)
    (dropped : ∀ byte ∈ lineEnd, isLineEnd byte = true) :
    ∃ high h l, after = [high] ∧ 6 ≤ payload.length ∧ HexValue high h ∧ HexValue last l ∧
      payload.foldl (· ^^^ ·) 0 = UInt8.ofNat (16 * h + l) := by
  have shape := @trimmed_concat (dollar :: (payload ++ star :: after)) lineEnd last kept dropped
  have layout : dollar :: (payload ++ star :: after) ++ [last] =
      dollar :: (payload ++ star :: (after ++ [last])) := by simp
  rw [layout] at shape
  obtain ⟨high, low, h, l, pair, long, hexHigh, hexLow, sum⟩ := (checksumValid_iff shape absent).mp valid
  have pair : after ++ [last] = [high] ++ [low] := pair
  obtain ⟨rfl, same⟩ := List.append_inj' pair rfl
  cases same
  exact ⟨high, h, l, rfl, long, hexHigh, hexLow, sum⟩

section Ignores

variable {inputEpoch : UInt32} {state : NmeaParserState}

theorem ignores_skipped (outside : state.inSentence = false) {bytes : List UInt8} (noStart : dollar ∉ bytes) :
    state.Ignores inputEpoch bytes :=
  ⟨state, NmeaParserState.feedAll_skip inputEpoch outside noStart, rfl, rfl, rfl⟩

/-- A line without its line feed is not complete yet. -/
theorem ignores_open {inner : List UInt8} (noStart : dollar ∉ inner) (noEnd : lineFeed ∉ inner)
    (room : inner.length < gnssNmeaMaxSentenceLen) : state.Ignores inputEpoch (dollar :: inner) :=
  ⟨_, NmeaParserState.feedAll_open inputEpoch noStart noEnd room, rfl, rfl, rfl⟩

/-- An invalid line is dropped, and so is what follows it up to the next `$`. -/
theorem ignores_invalid {inner rest : List UInt8} (noStart : dollar ∉ inner) (noEnd : lineFeed ∉ inner)
    (room : inner.length + 2 ≤ gnssNmeaMaxSentenceLen)
    (invalid : ¬ ChecksumValid (dollar :: inner ++ [lineFeed])) (restSkipped : dollar ∉ rest) :
    state.Ignores inputEpoch (dollar :: inner ++ [lineFeed] ++ rest) := by
  have line := @NmeaParserState.feedAll_invalid state inputEpoch inner noStart noEnd room invalid
  have skipped := @NmeaParserState.feedAll_skip state.idle inputEpoch rfl rest restSkipped
  apply Exists.intro state.idle
  rw [NmeaParserState.feedAll_append, line, skipped]
  exact ⟨rfl, rfl, rfl, rfl⟩

/-- A line whose byte behind `before` is replaced. A line feed there cuts the line in two. -/
theorem ignores_replaced {before after : List UInt8} {byte : UInt8}
    (plain : ∀ byte ∈ before ++ after, byte ≠ dollar ∧ byte ≠ lineFeed) (noStart : byte ≠ dollar)
    (room : before.length + after.length + 3 ≤ gnssNmeaMaxSentenceLen)
    (cut : byte = lineFeed → ¬ ChecksumValid (dollar :: before ++ [lineFeed]))
    (invalid : byte ≠ lineFeed → ¬ ChecksumValid (dollar :: (before ++ byte :: after) ++ [lineFeed])) :
    state.Ignores inputEpoch (dollar :: (before ++ byte :: after) ++ [lineFeed]) := by
  have startFirst : lineFeed ≠ dollar := by decide
  by_cases ends : byte = lineFeed
  · have ignored := @ignores_invalid inputEpoch state before (after ++ [lineFeed]) (by grind) (by grind) (by omega)
      (cut ends) (by grind)
    simpa [ends] using ignored
  · have ignored := @ignores_invalid inputEpoch state (before ++ byte :: after) [] (by grind) (by grind)
      (by simp only [List.length_append, List.length_cons]; omega) (invalid ends) (by simp)
    simpa using ignored

end Ignores

namespace NmeaLine

/-- What a valid line has besides its plain payload. -/
structure Valid (line : NmeaLine) (h l : Nat) : Prop where
  high : HexValue line.high h
  low : HexValue line.low l
  sum : line.payload.foldl (· ^^^ ·) 0 = UInt8.ofNat (16 * h + l)
  short : line.payload.length + 6 ≤ gnssNmeaMaxSentenceLen

theorem noStar (line : NmeaLine) : star ∉ line.payload :=
  fun member => (line.plain star member).2.1 rfl

theorem valid_of_checksum {line : NmeaLine} (valid : ChecksumValid line.bytes)
    (short : line.bytes.length ≤ gnssNmeaMaxSentenceLen) : ∃ h l, line.Valid h l := by
  obtain ⟨high, low, h, l, rest, same, -, hexHigh, hexLow, sum⟩ := valid.digits line.noStar
  cases same
  have fits : line.payload.length + 6 ≤ gnssNmeaMaxSentenceLen := by
    simp only [bytes, List.length_cons, List.length_append, List.length_nil] at short
    omega
  exact ⟨h, l, hexHigh, hexLow, sum, fits⟩

section Positions

variable {line : NmeaLine} {h l : Nat} {inputEpoch : UInt32} {state : NmeaParserState} {byte : UInt8}

/-- Nothing behind the `$` of a valid line restarts it, and only its end ends it. -/
theorem Valid.plain (valid : line.Valid h l) :
    ∀ byte ∈ line.payload ++ [star, line.high, line.low, carriageReturn], byte ≠ dollar ∧ byte ≠ lineFeed := by
  have payload := line.plain
  have high := valid.high.plain
  have low := valid.low.plain
  have marks : star ≠ dollar ∧ star ≠ lineFeed ∧ carriageReturn ≠ dollar ∧ carriageReturn ≠ lineFeed := by decide
  grind

/-- Without a `*` a buffer is not valid. -/
theorem invalid_of_noStar {inner : List UInt8} (absent : star ∉ inner) :
    ¬ ChecksumValid (dollar :: inner ++ [lineFeed]) := by
  intro bad
  have present := bad.star_mem
  have marks : star ≠ dollar ∧ star ≠ lineFeed := by decide
  grind

theorem lineEnd_isLineEnd : ∀ byte ∈ [carriageReturn, lineFeed], isLineEnd byte = true := by
  simp [isLineEnd]

theorem replaced_payload (valid : line.Valid h l) {before after : List UInt8} {original : UInt8}
    (split : line.payload = before ++ original :: after) (other : byte ≠ original) (noStart : byte ≠ dollar) :
    state.Ignores inputEpoch
      (dollar :: (before ++ byte :: (after ++ [star, line.high, line.low, carriageReturn])) ++ [lineFeed]) := by
  have plain := valid.plain
  have short := valid.short
  have noStar := line.noStar
  rw [split] at plain short noStar
  simp only [List.length_append, List.length_cons] at short
  apply ignores_replaced
  · intro byte member
    exact plain byte (by grind)
  · exact noStart
  · simp only [List.length_append, List.length_cons, List.length_nil]
    omega
  · intro _
    exact invalid_of_noStar (by grind)
  intro inside bad
  by_cases moved : byte = star
  · -- behind the first `*` there are more than two digits
    subst moved
    obtain ⟨high', h', l', same, -⟩ := @ChecksumValid.two_digits before (after ++ [star, line.high])
      [carriageReturn, lineFeed] line.low (by simpa using bad) (by grind) valid.low.not_lineEnd lineEnd_isLineEnd
    have lengths := congrArg List.length same
    simp only [List.length_append, List.length_cons, List.length_nil] at lengths
    omega
  · -- the digits are the same and the payload differs in one byte
    obtain ⟨high', low', h', l', rest, same, -, hexHigh, hexLow, sum⟩ := @ChecksumValid.digits (before ++ byte :: after)
      [line.high, line.low, carriageReturn, lineFeed] (by simpa using bad) (by grind)
    cases same
    have kept := valid.sum
    rw [split, valid.high.unique hexHigh, valid.low.unique hexLow] at kept
    exact other (foldl_xor_replace before after (sum.trans kept.symm))

theorem replaced_star (valid : line.Valid h l) (other : byte ≠ star) (noStart : byte ≠ dollar) :
    state.Ignores inputEpoch
      (dollar :: (line.payload ++ byte :: [line.high, line.low, carriageReturn]) ++ [lineFeed]) := by
  have plain := valid.plain
  have noStar := line.noStar
  apply ignores_replaced
  · intro byte member
    exact plain byte (by grind)
  · exact noStart
  · exact valid.short
  · intro _
    exact invalid_of_noStar noStar
  · intro _
    have high := valid.high.plain
    have low := valid.low.plain
    have mark : star ≠ carriageReturn := by decide
    exact invalid_of_noStar (by grind)

/-- Two pairs of digits that write the same byte have the same values. -/
theorem Valid.values (valid : line.Valid h l) {high low : UInt8} {h' l' : Nat} (hexHigh : HexValue high h')
    (hexLow : HexValue low l') (sum : line.payload.foldl (· ^^^ ·) 0 = UInt8.ofNat (16 * h' + l')) :
    h' = h ∧ l' = l := by
  have same := congrArg UInt8.toNat (sum.symm.trans valid.sum)
  have bounds := hexHigh.lt
  have bounds' := hexLow.lt
  have bound := valid.high.lt
  have bound' := valid.low.lt
  simp only [UInt8.toNat_ofNat'] at same
  omega

theorem replaced_high (valid : line.Valid h l) (other : byte ≠ line.high) (noStart : byte ≠ dollar)
    (sameCase : ¬ FlipsHexCase line.high byte) :
    state.Ignores inputEpoch
      (dollar :: (line.payload ++ [star] ++ byte :: [line.low, carriageReturn]) ++ [lineFeed]) := by
  have plain := valid.plain
  apply ignores_replaced
  · intro byte member
    exact plain byte (by grind)
  · exact noStart
  · simpa using valid.short
  · intro _ bad
    obtain ⟨high', low', h', l', rest, same, -⟩ :=
      @ChecksumValid.digits line.payload [lineFeed] (by simpa using bad) line.noStar
    cases same
  · intro _ bad
    obtain ⟨high', low', h', l', rest, same, -, hexHigh, hexLow, sum⟩ :=
      @ChecksumValid.digits line.payload [byte, line.low, carriageReturn, lineFeed] (by simpa using bad) line.noStar
    cases same
    obtain ⟨rfl, rfl⟩ := valid.values hexHigh hexLow sum
    exact sameCase (FlipsHexCase.of_values valid.high hexHigh other)

theorem replaced_low (valid : line.Valid h l) (other : byte ≠ line.low) (noStart : byte ≠ dollar)
    (sameCase : ¬ FlipsHexCase line.low byte) :
    state.Ignores inputEpoch
      (dollar :: (line.payload ++ [star, line.high] ++ byte :: [carriageReturn]) ++ [lineFeed]) := by
  have plain := valid.plain
  apply ignores_replaced
  · intro byte member
    exact plain byte (by grind)
  · exact noStart
  · simpa using valid.short
  · intro _ bad
    obtain ⟨high', low', h', l', rest, same, -, -, hexLow, -⟩ :=
      @ChecksumValid.digits line.payload [line.high, lineFeed] (by simpa using bad) line.noStar
    cases same
    exact hexLow.plain.2.2 rfl
  · intro _ bad
    obtain ⟨high', low', h', l', rest, same, -, hexHigh, hexLow, sum⟩ :=
      @ChecksumValid.digits line.payload [line.high, byte, carriageReturn, lineFeed] (by simpa using bad) line.noStar
    cases same
    obtain ⟨rfl, rfl⟩ := valid.values hexHigh hexLow sum
    exact sameCase (FlipsHexCase.of_values valid.low hexLow other)

/-- A byte in place of the CR is a third digit. -/
theorem replaced_cr (valid : line.Valid h l) (other : byte ≠ carriageReturn) (noStart : byte ≠ dollar)
    (noEnd : byte ≠ lineFeed) :
    state.Ignores inputEpoch
      (dollar :: (line.payload ++ [star, line.high, line.low] ++ byte :: []) ++ [lineFeed]) := by
  have plain := valid.plain
  apply ignores_replaced
  · intro byte member
    exact plain byte (by grind)
  · exact noStart
  · simpa using valid.short
  · intro ends
    exact absurd ends noEnd
  · intro _ bad
    obtain ⟨high', h', l', same, -⟩ := @ChecksumValid.two_digits line.payload [line.high, line.low] [lineFeed] byte
      (by simpa using bad) line.noStar (by simp [isLineEnd, other, noEnd]) (by simp [isLineEnd])
    cases same

theorem replaced_lf (valid : line.Valid h l) (other : byte ≠ lineFeed) (noStart : byte ≠ dollar) :
    state.Ignores inputEpoch (dollar :: (line.payload ++ [star, line.high, line.low, carriageReturn] ++ [byte])) := by
  have plain := valid.plain
  have short := valid.short
  apply ignores_open
  · grind
  · grind
  · simp only [List.length_append, List.length_cons, List.length_nil]
    omega

/-- Whatever byte of a valid line is replaced, unless the line stays valid. -/
theorem replaced (valid : line.Valid h l) (outside : state.inSentence = false) {i : Nat} {original : UInt8}
    (found : line.bytes[i]? = some original) (other : byte ≠ original) (noStart : byte ≠ dollar)
    (detected : ¬ line.Tolerated i byte) : state.Ignores inputEpoch (line.bytes.set i byte) := by
  cases i with
  | zero =>
      apply ignores_skipped outside
      have plain := valid.plain
      have marks : lineFeed ≠ dollar := by decide
      have tail : line.payload ++ [star, line.high, line.low, carriageReturn, lineFeed] =
          (line.payload ++ [star, line.high, line.low, carriageReturn]) ++ [lineFeed] := by simp
      rw [bytes, List.set_cons_zero, tail]
      grind
  | succ position =>
      rw [bytes, List.getElem?_cons_succ] at found
      rw [bytes, List.set_cons_succ]
      by_cases inPayload : position < line.payload.length
      · rw [List.getElem?_append_left inPayload] at found
        obtain ⟨bound, here⟩ := List.getElem?_eq_some_iff.mp found
        have split : line.payload = line.payload.take position ++ original :: line.payload.drop (position + 1) := by
          rw [← here, List.getElem_cons_drop, List.take_append_drop]
        have ignored := @replaced_payload line h l inputEpoch state byte valid _ _ _ split other noStart
        rw [List.set_append_left _ _ inPayload, List.set_eq_take_append_cons_drop, if_pos inPayload]
        simpa using ignored
      obtain ⟨offset, rfl⟩ := Nat.exists_eq_add_of_le (Nat.le_of_not_lt inPayload)
      rw [List.getElem?_append_right (Nat.le_add_right _ _), Nat.add_sub_cancel_left] at found
      rw [List.set_append_right _ _ (Nat.le_add_right _ _), Nat.add_sub_cancel_left]
      match offset, found with
      | 0, found =>
          cases found
          simpa using @replaced_star line h l inputEpoch state byte valid other noStart
      | 1, found =>
          cases found
          have sameCase : ¬ FlipsHexCase line.high byte := fun flips => detected (.inl ⟨rfl, flips⟩)
          simpa using @replaced_high line h l inputEpoch state byte valid other noStart sameCase
      | 2, found =>
          cases found
          have sameCase : ¬ FlipsHexCase line.low byte := fun flips => detected (.inr (.inl ⟨rfl, flips⟩))
          simpa using @replaced_low line h l inputEpoch state byte valid other noStart sameCase
      | 3, found =>
          cases found
          have noEnd : byte ≠ lineFeed := fun ends => detected (.inr (.inr ⟨rfl, ends⟩))
          simpa using @replaced_cr line h l inputEpoch state byte valid other noStart noEnd
      | 4, found =>
          cases found
          simpa using @replaced_lf line h l inputEpoch state byte valid other noStart
      | offset + 5, found => cases found

end Positions

end NmeaLine

/-- A valid line that arrives with one byte replaced does not reach the pairing of the
    parser, unless the replacement is one of the three that keep it valid. -/
theorem corrupted_line_ignored (inputEpoch : UInt32) {state : NmeaParserState} (fits : state.Fits)
    (outside : state.inSentence = false) (line : NmeaLine) (valid : ChecksumValid line.bytes)
    (short : line.bytes.length ≤ gnssNmeaMaxSentenceLen) {i : Nat} {original byte : UInt8}
    (found : line.bytes[i]? = some original) (other : byte ≠ original) (noStart : byte ≠ dollar)
    (detected : ¬ line.Tolerated i byte) :
    ∃ after, nmeaParserFeed inputEpoch state (line.bytes.set i byte) = some (after, []) ∧
      after.hasPendingGga = state.hasPendingGga ∧ after.pendingGga = state.pendingGga ∧
      after.pendingGgaHdopMilli = state.pendingGgaHdopMilli := by
  obtain ⟨h, l, valid⟩ := NmeaLine.valid_of_checksum valid short
  obtain ⟨after, fed, kept⟩ := @NmeaLine.replaced line h l inputEpoch state byte valid outside i original found
    other noStart detected
  exact ⟨after, (nmeaParserFeed_spec inputEpoch fits _).trans (congrArg some fed), kept⟩

/-- `$GPRMC,*67` -/
def sampleLine : NmeaLine where
  payload := [71, 80, 82, 77, 67, 44]
  high := 0x36
  low := 0x37
  plain := by decide +kernel

/-- The comma of the line replaced by a `*`. -/
theorem sample_line_ignored : ∃ after,
    nmeaParserFeed 7 .reset (sampleLine.bytes.set 6 star) = some (after, []) ∧
      after.hasPendingGga = false ∧ after.pendingGga = [] ∧ after.pendingGgaHdopMilli = 0 :=
  @corrupted_line_ignored 7 .reset .reset rfl sampleLine (by decide +kernel) (by decide) 6 comma star rfl
    (by decide) (by decide) (by decide)

end EspGnss.Nmea
