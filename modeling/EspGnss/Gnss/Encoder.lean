import EspGnss.Gnss.Reference
import EspGnss.Nmea.Decimal
import EspGnss.Nmea.Line

/-! # The encoder of the hardware test tool

`tools/hardware_ota_test.py` uploads sentences that it encodes itself. What the parser
emits for them are the very bytes that were encoded.
-/

namespace EspGnss.Gnss

open Foundation Nmea

/-- A digit of the format `X`. -/
def upperHexDigit (value : Nat) : UInt8 :=
  if value < 10 then .ofNat (0x30 + value) else .ofNat (0x41 + (value - 10))

/-- `nmea_sentence`, for the codes of an ASCII payload. -/
def nmeaSentence (payload : List UInt8) : List UInt8 :=
  let checksum := payload.foldl (· ^^^ ·) 0
  dollar :: (payload ++
    [Nmea.star, upperHexDigit (checksum.toNat / 16), upperHexDigit (checksum.toNat % 16), carriageReturn, lineFeed])

/-- A payload that fits a sentence of the parser. -/
structure NmeaPayload where
  bytes : List UInt8
  ascii : ∀ byte ∈ bytes, byte < 0x80
  plain : ∀ byte ∈ bytes, byte ≠ dollar ∧ byte ≠ Nmea.star ∧ byte ≠ carriageReturn ∧ byte ≠ lineFeed
  long : 6 ≤ bytes.length
  short : bytes.length ≤ 122

/-- A point of a route: a GGA payload whose 8th field is a number, an RMC payload, and
    what is sent before each. -/
structure RoutePoint where
  beforeGga : List UInt8
  gga : NmeaPayload
  beforeRmc : List UInt8
  rmc : NmeaPayload
  hdop : List UInt8
  noStart : dollar ∉ beforeGga ∧ dollar ∉ beforeRmc
  isGga : (gga.bytes.drop 2).take 3 = ggaType
  isRmc : (rmc.bytes.drop 2).take 3 = rmcType
  field : (gga.bytes.splitOn comma)[8]? = some hdop
  decimal : IsDecimal hdop
  inRange : fieldValue hdop < 2000000

namespace RoutePoint

def stream (point : RoutePoint) : List UInt8 :=
  point.beforeGga ++ nmeaSentence point.gga.bytes ++ (point.beforeRmc ++ nmeaSentence point.rmc.bytes)

/-- The candidate of a point: its two sentences. -/
def candidate (inputEpoch : UInt32) (point : RoutePoint) : GnssCandidate where
  gga := nmeaSentence point.gga.bytes
  rmc := nmeaSentence point.rmc.bytes
  hdopMilli := ⌊1000 * fieldValue point.hdop⌋
  inputEpoch := inputEpoch

end RoutePoint

theorem hexValue_upperHexDigit {value : Nat} (small : value < 16) : HexValue (upperHexDigit value) value := by
  have table : ∀ value < 16, HexValue (upperHexDigit value) value := by decide
  exact table value small

section Sentence

variable {payload : List UInt8}

/-- An encoded sentence without its line end. -/
theorem trimmed_nmeaSentence (payload : List UInt8) :
    trimmed (nmeaSentence payload) =
      dollar :: (payload ++ [Nmea.star, upperHexDigit ((payload.foldl (· ^^^ ·) 0).toNat / 16),
        upperHexDigit ((payload.foldl (· ^^^ ·) 0).toNat % 16)]) := by
  have low := hexValue_upperHexDigit (Nat.mod_lt (payload.foldl (· ^^^ ·) 0).toNat (by decide : 0 < 16))
  have ends : ∀ byte ∈ [carriageReturn, lineFeed], isLineEnd byte = true := by simp [isLineEnd]
  have cut := @trimmed_concat
    (dollar :: (payload ++ [Nmea.star, upperHexDigit ((payload.foldl (· ^^^ ·) 0).toNat / 16)]))
    [carriageReturn, lineFeed] _ low.not_lineEnd ends
  simpa [nmeaSentence] using cut

end Sentence

theorem NmeaPayload.checksumValid (payload : NmeaPayload) : ChecksumValid (nmeaSentence payload.bytes) := by
  generalize sum : payload.bytes.foldl (· ^^^ ·) 0 = checksum
  have trimmed := trimmed_nmeaSentence payload.bytes
  rw [sum] at trimmed
  have bound := checksum.toNat_lt
  refine ⟨payload.bytes, _, _, checksum.toNat / 16, checksum.toNat % 16, trimmed, payload.long, ?_,
    hexValue_upperHexDigit (by omega), hexValue_upperHexDigit (by omega), ?_⟩
  · intro member
    exact (payload.plain Nmea.star member).2.1 rfl
  · rw [sum, Nat.div_add_mod, UInt8.ofNat_toNat]

theorem NmeaPayload.lineType_eq (payload : NmeaPayload) :
    lineType (nmeaSentence payload.bytes) = (payload.bytes.drop 2).take 3 := by
  have long := payload.long
  rw [lineType, nmeaSentence, nmeaTypeOffset, List.drop_succ_cons, List.drop_append_of_le_length (by omega),
    List.take_append_of_le_length (by rw [List.length_drop]; omega)]

/-- The fields of an encoded sentence are those of its payload. -/
theorem NmeaPayload.lineField_eq (payload : NmeaPayload) {field : List UInt8}
    (found : (payload.bytes.splitOn comma)[8]? = some field) (nonempty : field ≠ []) :
    lineField (trimmed (nmeaSentence payload.bytes)) 8 = some field := by
  have noStar : Nmea.star ∉ payload.bytes := fun member => (payload.plain Nmea.star member).2.1 rfl
  by_cases present : comma ∈ payload.bytes
  swap
  · have whole : payload.bytes.splitOn comma = [payload.bytes] := by
      apply List.splitOnP_eq_singleton
      intro byte member
      exact beq_false_of_ne fun same => present (same ▸ member)
    rw [whole] at found
    cases found
  obtain ⟨before, rest, split, absent⟩ := List.eq_append_cons_of_mem present
  have pieces : payload.bytes.splitOn comma = before :: rest.splitOn comma := by
    rw [split]
    apply List.splitOnP_append_cons_of_forall_mem
    · intro byte member
      exact beq_false_of_ne fun same => absent (same ▸ member)
    · exact BEq.rfl
  rw [pieces, List.getElem?_cons_succ] at found
  rw [split] at noStar
  have restClean : ∀ byte ∈ rest, decide (byte ≠ Nmea.star) = true := by
    intro byte member
    have other : byte ≠ Nmea.star := by
      rintro rfl
      exact noStar (by simp [member])
    exact decide_eq_true other
  rw [trimmed_nmeaSentence, split]
  generalize (before ++ comma :: rest).foldl (· ^^^ ·) 0 = checksum
  have outside : comma ∉ dollar :: before := by
    have other : comma ≠ dollar := by decide
    simpa [other] using absent
  have area (digits : List UInt8) :
      fieldArea (dollar :: before ++ comma :: (rest ++ Nmea.star :: digits)) = rest := by
    have position : (dollar :: before ++ comma :: (rest ++ Nmea.star :: digits)).idxOf comma =
        (dollar :: before).length := by
      rw [List.idxOf_append_of_notMem outside, List.idxOf_cons_self, Nat.add_zero]
    rw [fieldArea, position, ← List.drop_drop, List.drop_left, List.drop_succ_cons, List.drop_zero,
      List.takeWhile_append_of_pos restClean, List.takeWhile_cons_of_neg (by simp), List.append_nil]
  have layout (digits : List UInt8) : dollar :: (before ++ comma :: rest ++ Nmea.star :: digits) =
      dollar :: before ++ comma :: (rest ++ Nmea.star :: digits) := by simp
  rw [layout, lineField, if_pos (by simp), area, found]
  simp [nonempty]

/-- An encoded sentence is one line of the parser. -/
theorem NmeaPayload.feedAll (payload : NmeaPayload) (inputEpoch : UInt32) (state : NmeaParserState) :
    state.feedAll inputEpoch (nmeaSentence payload.bytes) =
      let whole := { state with inSentence := true, sentence := nmeaSentence payload.bytes }
      ((whole.complete inputEpoch).1.idle, (whole.complete inputEpoch).2.toList) := by
  have plain := payload.plain
  have short := payload.short
  have digits : ∀ value < 16, upperHexDigit value ≠ dollar ∧ upperHexDigit value ≠ lineFeed := by decide
  have high := digits ((payload.bytes.foldl (· ^^^ ·) 0).toNat / 16)
    (by have := (payload.bytes.foldl (· ^^^ ·) 0).toNat_lt; omega)
  have low := digits ((payload.bytes.foldl (· ^^^ ·) 0).toNat % 16) (Nat.mod_lt _ (by decide))
  have marks : Nmea.star ≠ dollar ∧ Nmea.star ≠ lineFeed ∧ carriageReturn ≠ dollar ∧
      carriageReturn ≠ lineFeed := by decide
  have inner : ∀ byte ∈ payload.bytes ++ [Nmea.star, upperHexDigit ((payload.bytes.foldl (· ^^^ ·) 0).toNat / 16),
      upperHexDigit ((payload.bytes.foldl (· ^^^ ·) 0).toNat % 16), carriageReturn],
      byte ≠ dollar ∧ byte ≠ lineFeed := by
    intro byte member
    simp only [List.mem_append, List.mem_cons, List.not_mem_nil, or_false] at member
    grind
  have line := @NmeaParserState.feedAll_line state inputEpoch _ (fun member => (inner _ member).1 rfl)
    (fun member => (inner _ member).2 rfl)
    (by simp only [List.length_append, List.length_cons, List.length_nil, gnssNmeaMaxSentenceLen]; omega)
  simpa [nmeaSentence] using line

namespace RoutePoint

variable (point : RoutePoint)

theorem lineKind_gga : lineKind (nmeaSentence point.gga.bytes) = .gga ⌊1000 * fieldValue point.hdop⌋ := by
  have valid := point.gga.checksumValid
  have long : nmeaPrefixLen ≤ (nmeaSentence point.gga.bytes).length := Nat.le_trans (by decide) valid.length
  have isGga : lineType (nmeaSentence point.gga.bytes) = ggaType := point.gga.lineType_eq.trans point.isGga
  have nonempty : point.hdop ≠ [] := by
    obtain ⟨byte, member, -⟩ := point.decimal.2.2
    exact List.ne_nil_of_mem member
  have small : ⌊1000 * fieldValue point.hdop⌋ ≤ 2147483647 := by
    have range := point.inRange
    rw [Int.floor_le_iff]
    push_cast
    linarith
  have parsed : hdopMilli (nmeaSentence point.gga.bytes) = some ⌊1000 * fieldValue point.hdop⌋ := by
    rw [hdopMilli, if_pos ⟨long, starts_of_valid valid, isGga⟩, point.gga.lineField_eq point.field nonempty]
    exact (decimalMilli_exact point.decimal small).1
  rw [lineKind, if_pos valid, parsed]

theorem lineKind_rmc : lineKind (nmeaSentence point.rmc.bytes) = .rmc := by
  have isRmc : lineType (nmeaSentence point.rmc.bytes) = rmcType := point.rmc.lineType_eq.trans point.isRmc
  have other : rmcType ≠ ggaType := by decide
  have none : hdopMilli (nmeaSentence point.rmc.bytes) = none := by
    rw [hdopMilli, if_neg]
    rintro ⟨-, -, isGga⟩
    exact other (isRmc.symm.trans isGga)
  rw [lineKind, if_pos point.rmc.checksumValid, none]
  exact if_pos isRmc

/-- Between two lines a GGA sentence becomes the one that waits. -/
theorem feedAll_gga (inputEpoch : UInt32) {state : NmeaParserState} (outside : state.inSentence = false) :
    state.feedAll inputEpoch (point.beforeGga ++ nmeaSentence point.gga.bytes) =
      (⟨false, [], true, nmeaSentence point.gga.bytes, ⌊1000 * fieldValue point.hdop⌋⟩, []) := by
  rw [NmeaParserState.feedAll_append, NmeaParserState.feedAll_skip inputEpoch outside point.noStart.1,
    NmeaPayload.feedAll]
  simp only [NmeaParserState.complete, point.lineKind_gga]
  rfl

/-- An RMC sentence completes the candidate of the one that waits. -/
theorem feedAll_rmc (inputEpoch : UInt32) (gga : List UInt8) (hdopMilli : Int) :
    NmeaParserState.feedAll inputEpoch ⟨false, [], true, gga, hdopMilli⟩
        (point.beforeRmc ++ nmeaSentence point.rmc.bytes) =
      (⟨false, [], false, [], hdopMilli⟩,
        [⟨gga, nmeaSentence point.rmc.bytes, hdopMilli, inputEpoch⟩]) := by
  rw [NmeaParserState.feedAll_append, NmeaParserState.feedAll_skip inputEpoch rfl point.noStart.2,
    NmeaPayload.feedAll]
  simp only [NmeaParserState.complete, point.lineKind_rmc]
  rfl

/-- The parser turns a point into its candidate, whatever line it kept. -/
theorem feedAll (inputEpoch : UInt32) {state : NmeaParserState} (outside : state.inSentence = false) :
    state.feedAll inputEpoch point.stream =
      (⟨false, [], false, [], ⌊1000 * fieldValue point.hdop⌋⟩, [point.candidate inputEpoch]) := by
  rw [stream, NmeaParserState.feedAll_append, point.feedAll_gga inputEpoch outside, point.feedAll_rmc]
  rfl

end RoutePoint

theorem route_feedAll (inputEpoch : UInt32) (route : List RoutePoint) {state : NmeaParserState}
    (outside : state.inSentence = false) :
    (state.feedAll inputEpoch (route.flatMap RoutePoint.stream)).2 = route.map (·.candidate inputEpoch) := by
  induction route generalizing state with
  | nil => rfl
  | cons point rest ih =>
      rw [List.flatMap_cons, NmeaParserState.feedAll_append, point.feedAll inputEpoch outside]
      simp [ih]

/-- An encoded route fed to a reset parser in any chunks comes out as its candidates, byte
    by byte as it was encoded. -/
theorem encoded_route_emitted (inputEpoch : UInt32) (route : List RoutePoint) (chunks : List (List UInt8))
    (cut : chunks.flatten = route.flatMap RoutePoint.stream) :
    ∃ state, nmeaParserFeedCalls inputEpoch .reset chunks =
      some (state, route.map (·.candidate inputEpoch)) := by
  have emitted := @route_feedAll inputEpoch route .reset rfl
  have fed := nmeaParserFeedCalls_spec inputEpoch .reset chunks
  rw [cut, ← Prod.mk.eta (p := NmeaParserState.feedAll _ _ _), emitted] at fed
  exact ⟨_, fed⟩

/-- `GPGGA,,,,,,,,1.4` and `GPRMC,`, with a line feed before the first sentence. -/
def samplePoint : RoutePoint where
  beforeGga := [lineFeed]
  gga :=
    { bytes := [71, 80, 71, 71, 65, 44, 44, 44, 44, 44, 44, 44, 44, 49, 46, 52]
      ascii := by decide +kernel
      plain := by decide +kernel
      long := by decide
      short := by decide }
  beforeRmc := []
  rmc :=
    { bytes := [71, 80, 82, 77, 67, 44]
      ascii := by decide +kernel
      plain := by decide +kernel
      long := by decide
      short := by decide }
  hdop := [49, 46, 52]
  noStart := by decide
  isGga := by decide
  isRmc := by decide
  field := by decide +kernel
  decimal := by decide +kernel
  inRange := by
    have whole : spell (wholePart [49, 46, 52]) = [1] := by decide
    have fraction : spell (fractionPart [49, 46, 52]) = [4] := by decide
    rw [fieldValue, whole, fraction]
    norm_num [decimalValue, digitsValue_cons]

/-- The point cut after its first five bytes. -/
theorem sample_route_emitted : ∃ state,
    nmeaParserFeedCalls 7 .reset [samplePoint.stream.take 5, samplePoint.stream.drop 5] =
      some (state, [samplePoint.candidate 7]) := by
  have cut : [samplePoint.stream.take 5, samplePoint.stream.drop 5].flatten =
      [samplePoint].flatMap RoutePoint.stream := by simp
  exact encoded_route_emitted 7 [samplePoint] _ cut

end EspGnss.Gnss
