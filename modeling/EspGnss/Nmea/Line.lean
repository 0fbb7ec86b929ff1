import EspGnss.Nmea.Parser

/-! # Feeding a line

What the parser makes of a line that is fed as a whole, and which lines are valid when
they are taken apart at their first `*`.
-/

namespace EspGnss.Nmea

open Foundation

namespace NmeaParserState

variable {state : NmeaParserState}

/-- Outside a sentence everything is skipped up to the next `$`. -/
theorem feedAll_skip (inputEpoch : UInt32) (outside : state.inSentence = false) {bytes : List UInt8}
    (noStart : dollar ∉ bytes) : state.feedAll inputEpoch bytes = (state, []) := by
  induction bytes with
  | nil => rfl
  | cons byte rest ih =>
      obtain ⟨other, later⟩ : byte ≠ dollar ∧ dollar ∉ rest := by
        simpa [eq_comm] using noStart
      have skipped : state.feed inputEpoch byte = (state, none) := by
        simp [feed, other, outside]
      rw [feedAll, skipped]
      simp only [ih later]
      rfl

/-- Inside a sentence bytes are collected while there is room. -/
theorem feedAll_collect (inputEpoch : UInt32) (inside : state.inSentence = true) {bytes : List UInt8}
    (noStart : dollar ∉ bytes) (noEnd : lineFeed ∉ bytes)
    (room : state.sentence.length + bytes.length ≤ gnssNmeaMaxSentenceLen) :
    state.feedAll inputEpoch bytes = ({ state with sentence := state.sentence ++ bytes }, []) := by
  induction bytes generalizing state with
  | nil => simp [feedAll]
  | cons byte rest ih =>
      obtain ⟨notStart, laterStart⟩ : byte ≠ dollar ∧ dollar ∉ rest := by
        simpa [eq_comm] using noStart
      obtain ⟨notEnd, laterEnd⟩ : byte ≠ lineFeed ∧ lineFeed ∉ rest := by
        simpa [eq_comm] using noEnd
      rw [List.length_cons] at room
      have stored : state.feed inputEpoch byte =
          ({ state with sentence := state.sentence ++ [byte] }, none) := by
        have short : ¬state.sentence.length ≥ gnssNmeaMaxSentenceLen := by omega
        simp [feed, notStart, inside, short, notEnd]
      have collected := @ih { state with sentence := state.sentence ++ [byte] } inside laterStart laterEnd
        (by simp only [List.length_append, List.length_singleton]; omega)
      rw [feedAll, stored]
      simp only [collected]
      simp

/-- `$` opens a line whatever came before it. -/
theorem feedAll_open (inputEpoch : UInt32) {inner : List UInt8} (noStart : dollar ∉ inner)
    (noEnd : lineFeed ∉ inner) (room : inner.length < gnssNmeaMaxSentenceLen) :
    state.feedAll inputEpoch (dollar :: inner) =
      ({ state with inSentence := true, sentence := dollar :: inner }, []) := by
  have opened : state.feed inputEpoch dollar =
      ({ state with sentence := [dollar], inSentence := true }, none) := by simp [feed]
  have collected := @feedAll_collect { state with sentence := [dollar], inSentence := true } inputEpoch rfl
    inner noStart noEnd (by simp only [List.length_singleton]; omega)
  rw [feedAll, opened]
  simp only [collected]
  rfl

/-- A whole line that fits is completed. -/
theorem feedAll_line (inputEpoch : UInt32) {inner : List UInt8} (noStart : dollar ∉ inner)
    (noEnd : lineFeed ∉ inner) (room : inner.length + 2 ≤ gnssNmeaMaxSentenceLen) :
    state.feedAll inputEpoch (dollar :: inner ++ [lineFeed]) =
      let whole := { state with inSentence := true, sentence := dollar :: inner ++ [lineFeed] }
      ((whole.complete inputEpoch).1.idle, (whole.complete inputEpoch).2.toList) := by
  have opened := @feedAll_open state inputEpoch inner noStart noEnd (by omega)
  have short : ¬gnssNmeaMaxSentenceLen ≤ inner.length + 1 := by omega
  have ends : lineFeed ≠ dollar := by decide
  rw [feedAll_append, opened]
  simp [feedAll, feed, ends, short]

/-- An invalid line leaves only the line buffer behind. -/
theorem feedAll_invalid (inputEpoch : UInt32) {inner : List UInt8} (noStart : dollar ∉ inner)
    (noEnd : lineFeed ∉ inner) (room : inner.length + 2 ≤ gnssNmeaMaxSentenceLen)
    (invalid : ¬ ChecksumValid (dollar :: inner ++ [lineFeed])) :
    state.feedAll inputEpoch (dollar :: inner ++ [lineFeed]) = (state.idle, []) := by
  have dropped := @complete_invalid inputEpoch
    { state with inSentence := true, sentence := dollar :: inner ++ [lineFeed] } invalid
  rw [feedAll_line inputEpoch noStart noEnd room]
  simp only [dropped]
  rfl

end NmeaParserState

/-- The line end is trimmed up to the last byte that is neither CR nor LF. -/
theorem trimmed_concat {body lineEnd : List UInt8} {last : UInt8} (kept : isLineEnd last = false)
    (dropped : ∀ byte ∈ lineEnd, isLineEnd byte = true) :
    trimmed (body ++ [last] ++ lineEnd) = body ++ [last] := by
  induction lineEnd using List.reverseRecOn with
  | nil => simp [trimmed, List.rdropWhile_concat_neg, kept]
  | append_singleton earlier byte ih =>
      have ends : isLineEnd byte = true := dropped byte (by simp)
      rw [← List.append_assoc, trimmed, List.rdropWhile_concat_pos _ _ _ ends]
      exact ih fun byte member => dropped byte (List.mem_append_left _ member)

theorem ChecksumValid.star_mem {buffer : List UInt8} (valid : ChecksumValid buffer) : star ∈ buffer := by
  obtain ⟨lineEnd, split⟩ := trimmed_append_rest buffer
  obtain ⟨payload, high, low, h, l, shape, -⟩ := valid
  rw [split, shape]
  simp

theorem HexValue.not_lineEnd {digit value} (hex : HexValue digit value) : isLineEnd digit = false := by
  have table : ∀ value < 16, ∀ digits ∈ hexDigits, ∀ digit ∈ digits[value]?, isLineEnd digit = false := by
    decide +kernel
  obtain ⟨digits, member, found⟩ := hex
  exact table value (HexValue.lt ⟨digits, member, found⟩) digits member digit found

end EspGnss.Nmea
