import EspGnss.Nmea.Fields

/-! # The GGA/RMC parser

`nmeaParserFeedByte` is the loop body of `nmea_parser_feed`. Arrays and their
lengths are lists, with every store and copy checked against the size of the
C array; `NmeaParserState.Fits` is what keeps all of them inside.
-/

namespace EspGnss.Nmea

open Foundation

/-- `GNSS_NMEA_MAX_SENTENCE_LEN` -/
def gnssNmeaMaxSentenceLen : Nat := 128

/-- `gnss_candidate_t`; `gga` and `rmc` are the first `gga_len` and `rmc_len`
    bytes of its arrays. -/
structure GnssCandidate where
  gga : List UInt8
  rmc : List UInt8
  hdopMilli : Int
  inputEpoch : UInt32
  deriving DecidableEq, Repr

/-- `nmea_parser_state_t`; the lists are the used parts of its two arrays. -/
structure NmeaParserState where
  inSentence : Bool
  sentence : List UInt8
  hasPendingGga : Bool
  pendingGga : List UInt8
  pendingGgaHdopMilli : Int
  deriving DecidableEq, Repr

namespace NmeaParserState

/-- `memset(&s_parser_state, 0, sizeof(s_parser_state))` -/
def reset : NmeaParserState := ⟨false, [], false, [], 0⟩

/-- The used part of every array is no longer than the array. -/
structure Fits (state : NmeaParserState) : Prop where
  sentence : state.sentence.length ≤ gnssNmeaMaxSentenceLen
  pendingGga : state.pendingGga.length ≤ gnssNmeaMaxSentenceLen

end NmeaParserState

/-- `nmea_parser_complete_sentence`, with the candidate it hands to
    `gnss_candidate_send`, if any. `inputEpoch` is `s_input_epoch`. -/
def nmeaParserCompleteSentence (inputEpoch : UInt32) (state : NmeaParserState) :
    Option (NmeaParserState × Option GnssCandidate) := do
  -- Corrupted lines must not modify GGA/RMC pairing state.
  if !(← nmeaChecksumOk state.sentence state.sentence.length) then return (state, none)
  match ← nmeaParseHdopMilli state.sentence state.sentence.length with
  | some hdopMilli =>
      let pendingGga ← Memory.append gnssNmeaMaxSentenceLen [] state.sentence
      return ({ state with pendingGga, pendingGgaHdopMilli := hdopMilli, hasPendingGga := true }, none)
  | none =>
      if state.sentence.length < nmeaPrefixLen then return (state, none)
      if (← Memory.load state.sentence nmeaTypeOffset 3) ≠ rmcType then return (state, none)
      if !state.hasPendingGga then return (state, none)
      let gga ← Memory.append gnssNmeaMaxSentenceLen [] state.pendingGga
      let rmc ← Memory.append gnssNmeaMaxSentenceLen [] state.sentence
      return ({ state with hasPendingGga := false, pendingGga := [] },
        some { gga, rmc, hdopMilli := state.pendingGgaHdopMilli, inputEpoch })

/-- The loop body of `nmea_parser_feed`. -/
def nmeaParserFeedByte (inputEpoch : UInt32) (state : NmeaParserState) (byte : UInt8) :
    Option (NmeaParserState × Option GnssCandidate) := do
  if byte = dollar then return ({ state with sentence := [byte], inSentence := true }, none)
  if !state.inSentence then return (state, none)
  -- Ignore malformed overlong lines until the next '$'.
  if state.sentence.length ≥ gnssNmeaMaxSentenceLen then
    return ({ state with inSentence := false, sentence := [] }, none)
  let sentence ← Memory.store gnssNmeaMaxSentenceLen state.sentence byte
  let state := { state with sentence }
  if byte = lineFeed then
    let (state, candidate) ← nmeaParserCompleteSentence inputEpoch state
    return ({ state with inSentence := false, sentence := [] }, candidate)
  else return (state, none)

/-- `nmea_parser_feed`, with the candidates it hands to `gnss_candidate_send`. -/
def nmeaParserFeed (inputEpoch : UInt32) (state : NmeaParserState) :
    List UInt8 → Option (NmeaParserState × List GnssCandidate)
  | [] => some (state, [])
  | byte :: rest => do
      let (state, candidate) ← nmeaParserFeedByte inputEpoch state byte
      let (state, candidates) ← nmeaParserFeed inputEpoch state rest
      return (state, candidate.toList ++ candidates)

/-- What the pairing logic makes of a complete line. -/
inductive LineKind where
  /-- A valid GGA line with a usable HDOP field. -/
  | gga (hdopMilli : Int)
  /-- A valid RMC line. -/
  | rmc
  /-- A corrupted line or one of another type. -/
  | other
  deriving DecidableEq, Repr

def lineKind (line : List UInt8) : LineKind :=
  if ChecksumValid line then
    match hdopMilli line with
    | some hdopMilli => .gga hdopMilli
    | none => if lineType line = rmcType then .rmc else .other
  else .other

/-- Pairing state after a complete line, and the pair it completes. -/
def NmeaParserState.complete (inputEpoch : UInt32) (state : NmeaParserState) :
    NmeaParserState × Option GnssCandidate :=
  match lineKind state.sentence with
  | .gga hdopMilli =>
      ({ state with
          pendingGga := state.sentence
          pendingGgaHdopMilli := hdopMilli
          hasPendingGga := true }, none)
  | .rmc =>
      if state.hasPendingGga then
        ({ state with hasPendingGga := false, pendingGga := [] },
          some {
            gga := state.pendingGga
            rmc := state.sentence
            hdopMilli := state.pendingGgaHdopMilli
            inputEpoch })
      else (state, none)
  | .other => (state, none)

/-- A line that is not valid is ignored. -/
theorem complete_invalid (inputEpoch : UInt32) {state : NmeaParserState}
    (invalid : ¬ ChecksumValid state.sentence) : state.complete inputEpoch = (state, none) := by
  rw [NmeaParserState.complete, lineKind, if_neg invalid]

/-- The line buffer is given up. -/
def NmeaParserState.idle (state : NmeaParserState) : NmeaParserState :=
  { state with inSentence := false, sentence := [] }

/-- One byte of the parser. -/
def NmeaParserState.feed (inputEpoch : UInt32) (state : NmeaParserState) (byte : UInt8) :
    NmeaParserState × Option GnssCandidate :=
  if byte = dollar then ({ state with sentence := [byte], inSentence := true }, none)
  else if !state.inSentence then (state, none)
  else if state.sentence.length ≥ gnssNmeaMaxSentenceLen then (state.idle, none)
  else
    let state := { state with sentence := state.sentence ++ [byte] }
    if byte = lineFeed then ((state.complete inputEpoch).1.idle, (state.complete inputEpoch).2)
    else (state, none)

theorem ChecksumValid.length {line} (valid : ChecksumValid line) : 10 ≤ line.length := by
  obtain ⟨lineEnd, split⟩ := trimmed_append_rest line
  have whole := congrArg List.length split
  have long := valid.trimmed_length
  rw [List.length_append] at whole
  omega

/-- No copy made when a line is complete leaves its array. -/
theorem nmeaParserCompleteSentence_spec (inputEpoch : UInt32) {state : NmeaParserState}
    (fits : state.Fits) :
    nmeaParserCompleteSentence inputEpoch state = some (state.complete inputEpoch) := by
  obtain ⟨ok, checked, decides⟩ := nmeaChecksumOk_spec (Nat.le_refl state.sentence.length)
  have parsed := nmeaParseHdopMilli_spec (Nat.le_refl state.sentence.length)
  have copyLine : Memory.append gnssNmeaMaxSentenceLen [] state.sentence = some state.sentence :=
    Memory.append_inside (by simpa using fits.sentence)
  have copyPending : Memory.append gnssNmeaMaxSentenceLen [] state.pendingGga = some state.pendingGga :=
    Memory.append_inside (by simpa using fits.pendingGga)
  rw [List.take_length] at decides parsed
  simp only [nmeaParserCompleteSentence, NmeaParserState.complete, lineKind, checked, parsed,
    Option.bind_eq_bind, Option.bind_some]
  cases ok with
  | false =>
      have invalid : ¬ ChecksumValid state.sentence := fun valid => Bool.false_ne_true (decides.mpr valid)
      simp [invalid]
  | true =>
      have valid : ChecksumValid state.sentence := decides.mp rfl
      have long : nmeaPrefixLen ≤ state.sentence.length := Nat.le_trans (by decide) valid.length
      have typed := load_lineType (Nat.le_refl state.sentence.length) long
      rw [List.take_length] at typed
      cases hdop : hdopMilli state.sentence with
      | some value => simp [valid, copyLine]
      | none =>
          by_cases isRmc : lineType state.sentence = rmcType
          · cases pending : state.hasPendingGga <;>
              simp [valid, isRmc, typed, copyLine, copyPending, Nat.not_lt.mpr long]
          · simp [valid, isRmc, typed, Nat.not_lt.mpr long]

/-- The byte is stored only while the line buffer has room. -/
theorem nmeaParserFeedByte_spec (inputEpoch : UInt32) {state : NmeaParserState} (fits : state.Fits)
    (byte : UInt8) :
    nmeaParserFeedByte inputEpoch state byte = some (state.feed inputEpoch byte) := by
  unfold nmeaParserFeedByte NmeaParserState.feed
  by_cases starts : byte = dollar
  · rw [if_pos starts, if_pos starts]
    rfl
  rw [if_neg starts, if_neg starts]
  by_cases outside : (!state.inSentence) = true
  · rw [if_pos outside, if_pos outside]
    rfl
  rw [if_neg outside, if_neg outside]
  by_cases long : state.sentence.length ≥ gnssNmeaMaxSentenceLen
  · rw [if_pos long, if_pos long]
    rfl
  rw [if_neg long, if_neg long, Memory.store_inside byte (by omega)]
  simp only [Option.bind_eq_bind, Option.bind_some]
  by_cases ends : byte = lineFeed
  · have stored : { state with sentence := state.sentence ++ [byte] }.Fits :=
      ⟨by simp only [List.length_append, List.length_singleton]; omega, fits.pendingGga⟩
    rw [if_pos ends, if_pos ends, nmeaParserCompleteSentence_spec inputEpoch stored]
    rfl
  · rw [if_neg ends, if_neg ends]
    rfl

theorem NmeaParserState.Fits.complete {state : NmeaParserState} (fits : state.Fits)
    (inputEpoch : UInt32) : (state.complete inputEpoch).1.Fits := by
  unfold NmeaParserState.complete
  split
  · exact ⟨fits.sentence, fits.sentence⟩
  · split
    · exact ⟨fits.sentence, Nat.zero_le _⟩
    · exact fits
  · exact fits

theorem NmeaParserState.Fits.feed {state : NmeaParserState} (fits : state.Fits) (inputEpoch : UInt32)
    (byte : UInt8) : (state.feed inputEpoch byte).1.Fits := by
  unfold NmeaParserState.feed
  split
  · exact ⟨by simp [gnssNmeaMaxSentenceLen], fits.pendingGga⟩
  · split
    · exact fits
    · split
      · exact ⟨Nat.zero_le _, fits.pendingGga⟩
      · rename_i room
        have stored : { state with sentence := state.sentence ++ [byte] }.Fits :=
          ⟨by simp only [List.length_append, List.length_singleton]; omega, fits.pendingGga⟩
        dsimp only
        split
        · exact ⟨Nat.zero_le _, (stored.complete inputEpoch).pendingGga⟩
        · exact stored

/-- A whole buffer. -/
def NmeaParserState.feedAll (inputEpoch : UInt32) (state : NmeaParserState) :
    List UInt8 → NmeaParserState × List GnssCandidate
  | [] => (state, [])
  | byte :: rest =>
      let (state, candidate) := state.feed inputEpoch byte
      let (state, candidates) := state.feedAll inputEpoch rest
      (state, candidate.toList ++ candidates)

theorem NmeaParserState.feedAll_append (inputEpoch : UInt32) (state : NmeaParserState)
    (first second : List UInt8) :
    state.feedAll inputEpoch (first ++ second) =
      (((state.feedAll inputEpoch first).1.feedAll inputEpoch second).1,
        (state.feedAll inputEpoch first).2 ++
          ((state.feedAll inputEpoch first).1.feedAll inputEpoch second).2) := by
  induction first generalizing state with
  | nil => rfl
  | cons byte rest ih => simp only [List.cons_append, NmeaParserState.feedAll, ih, List.append_assoc]

theorem NmeaParserState.Fits.feedAll {state : NmeaParserState} (fits : state.Fits)
    (inputEpoch : UInt32) (data : List UInt8) : (state.feedAll inputEpoch data).1.Fits := by
  induction data generalizing state with
  | nil => exact fits
  | cons byte rest ih => exact ih (fits.feed inputEpoch byte)

/-- The parser never leaves its arrays, whatever it is fed. -/
theorem nmeaParserFeed_spec (inputEpoch : UInt32) {state : NmeaParserState} (fits : state.Fits)
    (data : List UInt8) :
    nmeaParserFeed inputEpoch state data = some (state.feedAll inputEpoch data) := by
  induction data generalizing state with
  | nil => rfl
  | cons byte rest ih =>
      rw [nmeaParserFeed, nmeaParserFeedByte_spec inputEpoch fits]
      simp only [Option.bind_eq_bind, Option.bind_some, ih (fits.feed inputEpoch byte)]
      rfl

theorem NmeaParserState.Fits.reset : NmeaParserState.reset.Fits :=
  ⟨Nat.zero_le _, Nat.zero_le _⟩

inductive Fed (inputEpoch : UInt32) (state : NmeaParserState) (byte : UInt8) :
    NmeaParserState → Option GnssCandidate → Prop where
  | start : byte = dollar →
      Fed inputEpoch state byte { state with sentence := [byte], inSentence := true } none
  | skip : state.inSentence = false → Fed inputEpoch state byte state none
  | overlong : Fed inputEpoch state byte state.idle none
  | store : byte ≠ dollar → byte ≠ lineFeed → state.inSentence = true →
      state.sentence.length < gnssNmeaMaxSentenceLen →
      Fed inputEpoch state byte { state with sentence := state.sentence ++ [byte] } none
  | other : byte = lineFeed → Fed inputEpoch state byte state.idle none
  | gga {hdopMilli} : byte = lineFeed → state.inSentence = true →
      state.sentence.length < gnssNmeaMaxSentenceLen →
      lineKind (state.sentence ++ [byte]) = .gga hdopMilli →
      Fed inputEpoch state byte
        ⟨false, [], true, state.sentence ++ [byte], hdopMilli⟩ none
  | rmc : byte = lineFeed → state.inSentence = true →
      state.sentence.length < gnssNmeaMaxSentenceLen →
      lineKind (state.sentence ++ [byte]) = .rmc → state.hasPendingGga = true →
      Fed inputEpoch state byte ⟨false, [], false, [], state.pendingGgaHdopMilli⟩
        (some ⟨state.pendingGga, state.sentence ++ [byte], state.pendingGgaHdopMilli, inputEpoch⟩)

theorem NmeaParserState.fed (inputEpoch : UInt32) (state : NmeaParserState) (byte : UInt8) :
    Fed inputEpoch state byte (state.feed inputEpoch byte).1 (state.feed inputEpoch byte).2 := by
  unfold NmeaParserState.feed
  split
  · rename_i starts
    exact .start starts
  · rename_i starts
    split
    · rename_i outside
      exact .skip (by simpa using outside)
    · rename_i inside
      have inside : state.inSentence = true := by simpa using inside
      split
      · exact .overlong
      · rename_i long
        have room := Nat.not_le.mp long
        dsimp only
        split
        · rename_i ends
          unfold NmeaParserState.complete
          split
          · rename_i kind
            exact .gga ends inside room kind
          · rename_i kind
            split
            · rename_i pending
              exact .rmc ends inside room kind pending
            · exact .other ends
          · exact .other ends
        · rename_i ends
          exact .store starts ends inside room

theorem Fed.pair_inputEpoch {inputEpoch : UInt32} {state after : NmeaParserState} {byte : UInt8}
    {pair : GnssCandidate} (h : Fed inputEpoch state byte after (some pair)) :
    pair.inputEpoch = inputEpoch := by
  cases h
  rfl

end EspGnss.Nmea
