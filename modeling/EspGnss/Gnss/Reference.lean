import EspGnss.Foundation.Framing
import EspGnss.Gnss.Input

/-! # What the parser emits

A description of the candidates of a byte stream that mentions no parser state:
find the frames `$...\n` of the whole stream, keep those with a valid checksum,
and pair each RMC line with the last usable GGA line not paired yet. The parser
emits exactly these candidates however the stream is cut into calls.
-/

namespace EspGnss.Gnss

open Foundation Nmea

/-- Lines start with `$`, end with LF and fit the sentence buffer. -/
def lineFraming : Framing UInt8 where
  opening := dollar
  closing := lineFeed
  capacity := gnssNmeaMaxSentenceLen
  distinct := by decide
  room := by decide

/-- A GGA line whose 8th field is a decimal number. -/
def IsUsableGga (line : List UInt8) : Prop :=
  lineType line = ggaType ∧ ∃ field ∈ lineField (trimmed line) 8, IsDecimal field

instance : DecidablePred IsUsableGga := fun line =>
  inferInstanceAs (Decidable (lineType line = ggaType ∧ ∃ field ∈ lineField (trimmed line) 8, IsDecimal field))

/-- The HDOP value that `nmea_parse_hdop_milli` returned for a line. -/
def returnedHdop (line : List UInt8) : Int :=
  ((nmeaParseHdopMilli line line.length).getD none).getD 0

/-- A GGA line, the HDOP value returned for it, and the RMC line paired with it. -/
abbrev Pair := List UInt8 × Int × List UInt8

/-- Pairing: the GGA line waiting for its RMC line, and the pairs found so far. -/
def pairStep : Option (List UInt8) × List Pair → List UInt8 → Option (List UInt8) × List Pair
  | (pending, pairs), line =>
      if IsUsableGga line then (some line, pairs)
      else if lineType line = rmcType then
        match pending with
        | some gga => (none, pairs ++ [(gga, returnedHdop gga, line)])
        | none => (none, pairs)
      else (pending, pairs)

/-- The valid lines of a stream. -/
def validLines (stream : List UInt8) : List (List UInt8) :=
  (lineFraming.frames stream).filter ChecksumValid

/-- The pairs of a stream. -/
def referencePairs (stream : List UInt8) : List Pair :=
  ((validLines stream).foldl pairStep (none, [])).2

def candidatePair (candidate : GnssCandidate) : Pair :=
  (candidate.gga, candidate.hdopMilli, candidate.rmc)

/-- Successive calls of `nmea_parser_feed`. -/
def nmeaParserFeedCalls (inputEpoch : UInt32) (state : NmeaParserState) :
    List (List UInt8) → Option (NmeaParserState × List GnssCandidate)
  | [] => some (state, [])
  | chunk :: rest => do
      let (state, first) ← nmeaParserFeed inputEpoch state chunk
      let (state, later) ← nmeaParserFeedCalls inputEpoch state rest
      return (state, first ++ later)

/-- Successive calls of `gnss_input_override_feed`. -/
def overrideFeedCalls (input : GnssInput) :
    List (List UInt8) → Option (GnssInput × List GnssCandidate)
  | [] => some (input, [])
  | chunk :: rest => do
      let (_, input, first) ← gnssInputOverrideFeed input (some chunk) chunk.length
      let (input, later) ← overrideFeedCalls input rest
      return (input, first ++ later)

/-- The line that the parser is assembling. -/
def openLine (state : NmeaParserState) : Option (List UInt8) :=
  if state.inSentence then some state.sentence else none

/-- The GGA line that the parser keeps. -/
def pendingLine (state : NmeaParserState) : Option (List UInt8) :=
  if state.hasPendingGga then some state.pendingGga else none

@[simp] theorem pendingLine_idle (state : NmeaParserState) : pendingLine state.idle = pendingLine state :=
  rfl

/-- The parser state and what it has emitted describe the stream fed so far. -/
structure Describes (stream : List UInt8) (state : NmeaParserState)
    (candidates : List GnssCandidate) : Prop where
  line : lineFraming.Tracks stream (openLine state)
  pairs : (validLines stream).foldl pairStep (none, []) =
    (pendingLine state, candidates.map candidatePair)
  hdop : state.hasPendingGga = true → state.pendingGgaHdopMilli = returnedHdop state.pendingGga

theorem returnedHdop_eq {line : List UInt8} {value : Int} (parsed : hdopMilli line = some value) :
    returnedHdop line = value := by
  have spec := nmeaParseHdopMilli_spec (Nat.le_refl line.length)
  rw [List.take_length, parsed] at spec
  simp [returnedHdop, spec]

theorem starts_of_valid {line : List UInt8} (valid : ChecksumValid line) :
    line.head? = some dollar := by
  obtain ⟨lineEnd, split⟩ := trimmed_append_rest line
  obtain ⟨payload, high, low, h, l, shape, -⟩ := valid
  rw [split, shape]
  rfl

/-- `nmea_parse_hdop_milli` succeeds on the valid GGA lines whose 8th field is a
    decimal number. -/
theorem hdopMilli_isSome_iff {line : List UInt8} (valid : ChecksumValid line) :
    (hdopMilli line).isSome ↔ IsUsableGga line := by
  have long : nmeaPrefixLen ≤ line.length := Nat.le_trans (by decide) valid.length
  unfold hdopMilli IsUsableGga
  simp only [long, starts_of_valid valid, true_and]
  by_cases isGga : lineType line = ggaType
  · rw [if_pos isGga, and_iff_right isGga]
    cases found : lineField (trimmed line) 8 with
    | none => simp
    | some field => simpa using decimalMilli_isSome_iff field
  · simp [isGga]

/-- Completing a valid line is one step of the pairing. -/
theorem complete_pairStep (inputEpoch : UInt32) {state : NmeaParserState} (pairs : List Pair)
    (valid : ChecksumValid state.sentence)
    (hdop : state.hasPendingGga = true → state.pendingGgaHdopMilli = returnedHdop state.pendingGga) :
    pairStep (pendingLine state, pairs) state.sentence =
      (pendingLine (state.complete inputEpoch).1,
        pairs ++ (state.complete inputEpoch).2.toList.map candidatePair) := by
  have usable := hdopMilli_isSome_iff valid
  unfold pairStep NmeaParserState.complete lineKind
  rw [if_pos valid]
  cases parsed : hdopMilli state.sentence with
  | some value =>
      have isUsable : IsUsableGga state.sentence := usable.mp (by rw [parsed]; rfl)
      simp [isUsable, pendingLine]
  | none =>
      have notUsable : ¬ IsUsableGga state.sentence := by
        rw [← usable, parsed]
        exact Bool.false_ne_true
      by_cases isRmc : lineType state.sentence = rmcType
      · cases pending : state.hasPendingGga with
        | true => simp [notUsable, isRmc, pendingLine, pending, candidatePair, hdop pending]
        | false => simp [notUsable, isRmc, pendingLine, pending]
      · simp [notUsable, isRmc]

/-- The HDOP value kept with a pending GGA line is the one returned for it. -/
theorem complete_hdop (inputEpoch : UInt32) {state : NmeaParserState}
    (hdop : state.hasPendingGga = true → state.pendingGgaHdopMilli = returnedHdop state.pendingGga) :
    (state.complete inputEpoch).1.hasPendingGga = true →
      (state.complete inputEpoch).1.pendingGgaHdopMilli =
        returnedHdop (state.complete inputEpoch).1.pendingGga := by
  unfold NmeaParserState.complete lineKind
  split
  · rename_i value kind
    intro _
    split at kind
    · split at kind
      · rename_i parsed
        cases kind
        exact (returnedHdop_eq parsed).symm
      · split at kind <;> cases kind
    · cases kind
  · split
    · intro impossible
      cases impossible
    · exact hdop
  · exact hdop

theorem validLines_snoc {stream : List UInt8} {line : Option (List UInt8)}
    (tracks : lineFraming.Tracks stream line) (byte : UInt8) :
    validLines (stream ++ [byte]) =
      validLines stream ++ (lineFraming.emit line byte).toList.filter ChecksumValid := by
  rw [validLines, lineFraming.frames_snoc tracks, List.filter_append, validLines]

/-- What one byte does to the parser: it completes the line that the recogniser emits, or
    only the line that is open changes. -/
theorem feed_cases (inputEpoch : UInt32) (state : NmeaParserState) (byte : UInt8) :
    (∃ sentence, lineFraming.emit (openLine state) byte = some sentence ∧
        lineFraming.scan (openLine state) byte = none ∧
        state.feed inputEpoch byte = (({ state with sentence }.complete inputEpoch).1.idle,
          ({ state with sentence }.complete inputEpoch).2)) ∨
      lineFraming.emit (openLine state) byte = none ∧ ∃ inSentence sentence,
        state.feed inputEpoch byte = ({ state with inSentence, sentence }, none) ∧
        openLine { state with inSentence, sentence } = lineFraming.scan (openLine state) byte := by
  unfold NmeaParserState.feed
  by_cases starts : byte = dollar
  · subst starts
    rw [if_pos rfl]
    exact .inr ⟨lineFraming.emit_opening, true, [dollar], rfl, lineFraming.scan_opening.symm⟩
  rw [if_neg starts]
  cases inside : state.inSentence with
  | false =>
      have closed : openLine state = none := by simp [openLine, inside]
      rw [if_pos (by rfl), closed, lineFraming.scan_outside starts]
      exact .inr ⟨rfl, false, state.sentence, by rw [← inside], rfl⟩
  | true =>
      have isOpen : openLine state = some state.sentence := by simp [openLine, inside]
      rw [if_neg (by decide), isOpen]
      by_cases full : state.sentence.length ≥ gnssNmeaMaxSentenceLen
      · rw [if_pos full, lineFraming.scan_full starts full, lineFraming.emit_full full]
        exact .inr ⟨rfl, false, [], rfl, rfl⟩
      have room : state.sentence.length < gnssNmeaMaxSentenceLen := Nat.not_le.mp full
      rw [if_neg full]
      by_cases ends : byte = lineFeed
      · subst ends
        rw [if_pos rfl]
        exact .inl ⟨_, lineFraming.emit_closing room, lineFraming.scan_closing, rfl⟩
      · rw [if_neg ends, lineFraming.scan_inner starts ends room, lineFraming.emit_inner ends]
        exact .inr ⟨rfl, true, state.sentence ++ [byte], by rw [← inside], rfl⟩

theorem Describes.feed {stream : List UInt8} {state : NmeaParserState}
    {candidates : List GnssCandidate} (describes : Describes stream state candidates)
    (inputEpoch : UInt32) (byte : UInt8) :
    Describes (stream ++ [byte]) (state.feed inputEpoch byte).1
      (candidates ++ (state.feed inputEpoch byte).2.toList) := by
  have tracks := describes.line.snoc lineFraming byte
  have lines := validLines_snoc describes.line byte
  rcases feed_cases inputEpoch state byte with
    ⟨sentence, emitted, scanned, fed⟩ | ⟨silent, inSentence, sentence, fed, scanned⟩
  · -- The byte completes the line: one step of the pairing.
    rw [fed]
    refine ⟨by rw [scanned] at tracks; exact tracks, ?_, @complete_hdop inputEpoch { state with sentence } describes.hdop⟩
    have samePending : pendingLine { state with sentence } = pendingLine state := rfl
    rw [lines, emitted, List.foldl_append, describes.pairs, List.map_append, ← samePending]
    by_cases valid : ChecksumValid sentence
    · have paired := @complete_pairStep inputEpoch { state with sentence } (candidates.map candidatePair) valid
        describes.hdop
      simpa [valid] using paired
    · have unchanged := @complete_invalid inputEpoch { state with sentence } valid
      simp [valid, unchanged]
  · -- A byte that completes no line leaves the pairing as it was.
    rw [fed]
    refine ⟨scanned ▸ tracks, ?_, describes.hdop⟩
    have samePending : pendingLine { state with inSentence, sentence } = pendingLine state := rfl
    rw [lines, silent, samePending]
    simpa using describes.pairs

theorem Describes.feedAll {stream : List UInt8} {state : NmeaParserState}
    {candidates : List GnssCandidate} (describes : Describes stream state candidates)
    (inputEpoch : UInt32) (data : List UInt8) :
    Describes (stream ++ data) (state.feedAll inputEpoch data).1
      (candidates ++ (state.feedAll inputEpoch data).2) := by
  induction data generalizing stream state candidates with
  | nil => simpa [NmeaParserState.feedAll] using describes
  | cons byte rest ih =>
      have later := ih (describes.feed inputEpoch byte)
      simpa only [NmeaParserState.feedAll, List.append_assoc, List.cons_append, List.nil_append]
        using later

theorem describes_reset : Describes [] .reset [] where
  line := lineFraming.tracks_nil
  pairs := by simp [validLines, pendingLine, NmeaParserState.reset]
  hdop := fun impossible => by cases impossible

theorem feedAll_reset_pairs (inputEpoch : UInt32) (stream : List UInt8) :
    (NmeaParserState.reset.feedAll inputEpoch stream).2.map candidatePair = referencePairs stream := by
  have described := (describes_reset.feedAll inputEpoch stream).pairs
  rw [List.nil_append] at described
  rw [referencePairs, described, List.nil_append]

theorem nmeaParserFeedCalls_spec (inputEpoch : UInt32) {state : NmeaParserState} (fits : state.Fits)
    (chunks : List (List UInt8)) :
    nmeaParserFeedCalls inputEpoch state chunks = some (state.feedAll inputEpoch chunks.flatten) := by
  induction chunks generalizing state with
  | nil => rfl
  | cons chunk rest ih =>
      rw [nmeaParserFeedCalls, nmeaParserFeed_spec inputEpoch fits]
      simp only [Option.bind_eq_bind, Option.bind_some, ih (fits.feedAll inputEpoch chunk),
        List.flatten_cons, NmeaParserState.feedAll_append, Option.pure_def]

theorem overrideFeedCalls_spec {input : GnssInput} (fits : input.parserState.Fits)
    (active : input.overrideActive = true) (accepting : input.overrideClosing = false)
    (chunks : List (List UInt8)) :
    overrideFeedCalls input chunks =
      some ({ input with
          parserState := (input.parserState.feedAll input.inputEpoch chunks.flatten).1 },
        (input.parserState.feedAll input.inputEpoch chunks.flatten).2) := by
  induction chunks generalizing input with
  | nil => rfl
  | cons chunk rest ih =>
      rw [overrideFeedCalls, gnssInputOverrideFeed_spec fits active accepting]
      let fed : GnssInput :=
        { input with parserState := (input.parserState.feedAll input.inputEpoch chunk).1 }
      have later : overrideFeedCalls fed rest = _ :=
        ih (fits.feedAll input.inputEpoch chunk) active accepting
      change (overrideFeedCalls fed rest).bind _ = _
      simp only [Option.bind_some, later, List.flatten_cons, NmeaParserState.feedAll_append,
        Option.pure_def]
      rfl

/-- From a reset parser, every stream in every division into calls of
    `nmea_parser_feed`, or of `gnss_input_override_feed` during an override, hands
    on the pairs of the description. -/
theorem parser_emits_reference (inputEpoch : UInt32) (chunks : List (List UInt8)) :
    (∃ state candidates,
      nmeaParserFeedCalls inputEpoch .reset chunks = some (state, candidates) ∧
        candidates.map candidatePair = referencePairs chunks.flatten) ∧
    (∃ input candidates,
      overrideFeedCalls ⟨.reset, true, false, inputEpoch⟩ chunks = some (input, candidates) ∧
        candidates.map candidatePair = referencePairs chunks.flatten) := by
  constructor
  · exact ⟨_, _, nmeaParserFeedCalls_spec inputEpoch .reset chunks,
      feedAll_reset_pairs inputEpoch chunks.flatten⟩
  · exact ⟨_, _, overrideFeedCalls_spec .reset rfl rfl chunks,
      feedAll_reset_pairs inputEpoch chunks.flatten⟩

end EspGnss.Gnss
