import EspGnss.Gnss.Encoder
import EspGnss.Gnss.Outcome
import Mathlib.Data.List.DropRight

/-! # The mock test of the hardware test tool

`tools/hardware_ota_test.py` uploads three fixes of the present second and looks for one of their
sentences in the stream. Whatever the time is, every fix of the upload that is published passes,
and if no pair was dropped the best of them has been published before the override ends.
-/

namespace EspGnss.Gnss

open Foundation Nmea

/-- The codes of an ASCII text. -/
def ascii (text : String) : List UInt8 := text.toList.map fun c => .ofNat c.toNat

/-- What the tool reads of `time.gmtime()`. -/
structure StructTime where
  tmYear : Nat
  tmMon : Nat
  tmMday : Nat
  tmHour : Nat
  tmMin : Nat
  tmSec : Nat

/-- The format `02d` of a number below 100. -/
def format02d (n : Nat) : List UInt8 := [.ofNat (0x30 + n / 10 % 10), .ofNat (0x30 + n % 10)]

/-- `time.strftime("%d%m%y", now)` -/
def StructTime.date (now : StructTime) : List UInt8 :=
  format02d now.tmMday ++ format02d now.tmMon ++ format02d (now.tmYear % 100)

def StructTime.baseSeconds (now : StructTime) : Nat := (now.tmHour * 3600 + now.tmMin * 60 + now.tmSec) % 86400

/-- An entry of `points`. -/
structure MockPoint where
  lat : String
  lon : String
  hdop : String
  deriving DecidableEq, Repr

/-- `points` -/
def mockPoints : List MockPoint :=
  [⟨"3723.2475", "12158.3416", "1.4"⟩, ⟨"3723.2480", "12158.3420", "1.0"⟩, ⟨"3723.2485", "12158.3425", "0.6"⟩]

/-- `timestamp` -/
def mockTimestamp (now : StructTime) (index : Nat) : List UInt8 :=
  let seconds := (now.baseSeconds + index) % 86400
  format02d (seconds / 3600) ++ format02d (seconds / 60 % 60) ++ format02d (seconds % 60)

/-- The payload of `gga`. -/
def mockGga (timestamp : List UInt8) (point : MockPoint) : List UInt8 :=
  ascii "GPGGA," ++ timestamp ++ ascii "," ++ ascii point.lat ++ ascii ",N," ++ ascii point.lon ++ ascii ",W,1,08," ++
    ascii point.hdop ++ ascii ",545.4,M,46.9,M,,"

/-- The payload of `rmc`. -/
def mockRmc (timestamp : List UInt8) (point : MockPoint) (date : List UInt8) : List UInt8 :=
  ascii "GPRMC," ++ timestamp ++ ascii ",A," ++ ascii point.lat ++ ascii ",N," ++ ascii point.lon ++
    ascii ",W,000.5,084.4," ++ date ++ ascii ",003.1,W"

/-- The sentences of one pass of the loop of `make_mock_route`. -/
def mockSentences (now : StructTime) (index : Nat) (point : MockPoint) : List UInt8 × List UInt8 :=
  let timestamp := mockTimestamp now index
  (nmeaSentence (mockGga timestamp point), nmeaSentence (mockRmc timestamp point now.date))

/-- What `str.strip` removes of an ASCII text. -/
def isSpace (byte : UInt8) : Bool := 0x09 ≤ byte && byte ≤ 0x0D || 0x1C ≤ byte && byte ≤ 0x20

/-- `sentence.decode("ascii").strip()` -/
def strip (sentence : List UInt8) : List UInt8 := (sentence.dropWhile isSpace).rdropWhile isSpace

/-- `make_mock_route`: the chunks and the sentences that are expected. -/
def makeMockRoute (now : StructTime) : List (List UInt8) × List (List UInt8) :=
  let sentences := mockPoints.mapIdx fun index point => mockSentences now index point
  (sentences.map fun (gga, rmc) => gga ++ rmc, sentences.flatMap fun (gga, rmc) => [strip gga, strip rmc])

/-- `has_mock_sentence` -/
def hasMockSentence (expected : List (List UInt8)) (text : List UInt8) : Bool :=
  expected.any fun sentence => decide (sentence <:+: text)

/-- What may stand in a payload. -/
def PlainText (bytes : List UInt8) : Prop :=
  ∀ byte ∈ bytes, byte < 0x80 ∧ byte ≠ dollar ∧ byte ≠ Nmea.star ∧ byte ≠ carriageReturn ∧ byte ≠ lineFeed

instance : DecidablePred PlainText := fun bytes =>
  inferInstanceAs (Decidable (∀ byte ∈ bytes, byte < 0x80 ∧ byte ≠ dollar ∧ byte ≠ Nmea.star ∧ byte ≠ carriageReturn ∧
    byte ≠ lineFeed))

theorem plainText_append {first second : List UInt8} :
    PlainText (first ++ second) ↔ PlainText first ∧ PlainText second := List.forall_mem_append

/-- Six digits. -/
structure IsTime (text : List UInt8) : Prop where
  digits : ∀ byte ∈ text, 0x30 ≤ byte ∧ byte ≤ 0x39
  length : text.length = 6

theorem format02d_digits (n : Nat) : ∀ byte ∈ format02d n, 0x30 ≤ byte ∧ byte ≤ 0x39 := by
  have table : ∀ digit < 10, (0x30 : UInt8) ≤ .ofNat (0x30 + digit) ∧ UInt8.ofNat (0x30 + digit) ≤ 0x39 := by decide
  have high := table (n / 10 % 10) (Nat.mod_lt _ (by decide))
  have low := table (n % 10) (Nat.mod_lt _ (by decide))
  intro byte member
  simp only [format02d, List.mem_cons, List.not_mem_nil, or_false] at member
  rcases member with rfl | rfl
  · exact high
  · exact low

theorem isTime_of_formats (first second third : Nat) : IsTime (format02d first ++ format02d second ++ format02d third) where
  digits byte member := by
    rcases List.mem_append.mp member with member | last
    · rcases List.mem_append.mp member with here | here <;> exact format02d_digits _ byte here
    · exact format02d_digits _ byte last
  length := rfl

theorem IsTime.plain {text : List UInt8} (time : IsTime text) : PlainText text := by
  intro byte member
  have digit := time.digits byte member
  have small : byte < 0x80 := UInt8.lt_of_le_of_lt digit.2 (by decide)
  refine ⟨small, ?_, ?_, ?_, ?_⟩
  all_goals
    rintro rfl
    revert digit
    decide

theorem IsTime.no_comma {text : List UInt8} (time : IsTime text) : comma ∉ text := by
  intro member
  have digit := time.digits comma member
  revert digit
  decide

theorem splitOn_field {field rest : List UInt8} (clean : comma ∉ field) :
    (field ++ comma :: rest).splitOn comma = field :: rest.splitOn comma := by
  apply List.splitOnP_append_cons_of_forall_mem
  · intro byte member
    exact beq_false_of_ne fun same => clean (same ▸ member)
  · exact BEq.rfl

section Payloads

variable {timestamp date : List UInt8} {point : MockPoint}

/-- What the texts of an entry of `points` make of the sentences. -/
structure MockPoint.Fine (point : MockPoint) : Prop where
  plain : PlainText (ascii point.lat) ∧ PlainText (ascii point.lon) ∧ PlainText (ascii point.hdop)
  short : (ascii point.lat).length + (ascii point.lon).length + (ascii point.hdop).length ≤ 22
  field : ((ascii point.lat ++ ascii ",N," ++ ascii point.lon ++ ascii ",W,1,08," ++ ascii point.hdop ++
    ascii ",545.4,M,46.9,M,,").splitOn comma)[6]? = some (ascii point.hdop)
  decimal : IsDecimal (ascii point.hdop)

theorem fine_of_mem (member : point ∈ mockPoints) : point.Fine := by
  have plain : ∀ point ∈ mockPoints,
      PlainText (ascii point.lat) ∧ PlainText (ascii point.lon) ∧ PlainText (ascii point.hdop) := by decide +kernel
  have short : ∀ point ∈ mockPoints,
      (ascii point.lat).length + (ascii point.lon).length + (ascii point.hdop).length ≤ 22 := by decide +kernel
  have field : ∀ point ∈ mockPoints, ((ascii point.lat ++ ascii ",N," ++ ascii point.lon ++ ascii ",W,1,08," ++
      ascii point.hdop ++ ascii ",545.4,M,46.9,M,,").splitOn comma)[6]? = some (ascii point.hdop) := by decide +kernel
  have decimal : ∀ point ∈ mockPoints, IsDecimal (ascii point.hdop) := by decide +kernel
  exact ⟨plain point member, short point member, field point member, decimal point member⟩

/-- The texts that every sentence of the route has. -/
theorem words_plain : PlainText (ascii "GPGGA,") ∧ PlainText (ascii "GPRMC,") ∧ PlainText (ascii ",") ∧
    PlainText (ascii ",A,") ∧ PlainText (ascii ",N,") ∧ PlainText (ascii ",W,1,08,") ∧
    PlainText (ascii ",545.4,M,46.9,M,,") ∧ PlainText (ascii ",W,000.5,084.4,") ∧ PlainText (ascii ",003.1,W") := by
  decide +kernel

theorem words_length : (ascii "GPGGA,").length = 6 ∧ (ascii "GPRMC,").length = 6 ∧ (ascii ",").length = 1 ∧
    (ascii ",A,").length = 3 ∧ (ascii ",N,").length = 3 ∧ (ascii ",W,1,08,").length = 8 ∧
    (ascii ",545.4,M,46.9,M,,").length = 17 ∧ (ascii ",W,000.5,084.4,").length = 15 ∧
    (ascii ",003.1,W").length = 8 := by
  decide +kernel

theorem mockGga_plain (time : IsTime timestamp) (fine : point.Fine) : PlainText (mockGga timestamp point) := by
  simp only [mockGga, plainText_append, words_plain, fine.plain, time.plain, and_self]

theorem mockRmc_plain (time : IsTime timestamp) (day : IsTime date) (fine : point.Fine) :
    PlainText (mockRmc timestamp point date) := by
  simp only [mockRmc, plainText_append, words_plain, fine.plain, time.plain, day.plain, and_self]

theorem mockGga_length (time : IsTime timestamp) : (mockGga timestamp point).length =
    41 + (ascii point.lat).length + (ascii point.lon).length + (ascii point.hdop).length := by
  simp only [mockGga, List.length_append, time.length, words_length]
  omega

theorem mockRmc_length (time : IsTime timestamp) (day : IsTime date) : (mockRmc timestamp point date).length =
    47 + (ascii point.lat).length + (ascii point.lon).length := by
  simp only [mockRmc, List.length_append, time.length, day.length, words_length]
  omega

/-- The 8th field of a GGA payload is the HDOP. -/
theorem mockGga_field (time : IsTime timestamp) (fine : point.Fine) :
    ((mockGga timestamp point).splitOn comma)[8]? = some (ascii point.hdop) := by
  have layout : mockGga timestamp point = ascii "GPGGA" ++ comma :: (timestamp ++ comma :: (ascii point.lat ++ ascii ",N," ++
      ascii point.lon ++ ascii ",W,1,08," ++ ascii point.hdop ++ ascii ",545.4,M,46.9,M,,")) := by
    have first : ascii "GPGGA," = ascii "GPGGA" ++ [comma] := by decide +kernel
    have second : ascii "," = [comma] := by decide +kernel
    simp only [mockGga, first, second, List.append_assoc, List.cons_append, List.nil_append]
  have clean : comma ∉ ascii "GPGGA" := by decide +kernel
  rw [layout, splitOn_field clean, splitOn_field time.no_comma]
  exact fine.field

/-- A fix of the route. -/
def mockRoutePoint (time : IsTime timestamp) (day : IsTime date) (fine : point.Fine)
    (inRange : fieldValue (ascii point.hdop) < 2000000) : RoutePoint where
  beforeGga := []
  gga :=
    { bytes := mockGga timestamp point
      ascii byte member := (mockGga_plain time fine byte member).1
      plain byte member := (mockGga_plain time fine byte member).2
      long := by
        rw [mockGga_length time]
        omega
      short := by
        have short := fine.short
        rw [mockGga_length time]
        omega }
  beforeRmc := []
  rmc :=
    { bytes := mockRmc timestamp point date
      ascii byte member := (mockRmc_plain time day fine byte member).1
      plain byte member := (mockRmc_plain time day fine byte member).2
      long := by
        rw [mockRmc_length time day]
        omega
      short := by
        have short := fine.short
        rw [mockRmc_length time day]
        omega }
  hdop := ascii point.hdop
  noStart := ⟨List.not_mem_nil, List.not_mem_nil⟩
  isGga := rfl
  isRmc := rfl
  field := mockGga_field time fine
  decimal := fine.decimal
  inRange := inRange

end Payloads

theorem fieldValue_hdop : fieldValue (ascii "1.4") = 1.4 ∧ fieldValue (ascii "1.0") = 1 ∧ fieldValue (ascii "0.6") = 0.6 := by
  have whole : spell (wholePart (ascii "1.4")) = [1] ∧ spell (wholePart (ascii "1.0")) = [1] ∧
      spell (wholePart (ascii "0.6")) = [0] := by decide +kernel
  have fraction : spell (fractionPart (ascii "1.4")) = [4] ∧ spell (fractionPart (ascii "1.0")) = [0] ∧
      spell (fractionPart (ascii "0.6")) = [6] := by decide +kernel
  simp only [fieldValue, whole, fraction]
  norm_num [decimalValue, digitsValue_cons]

theorem hdop_inRange {point : MockPoint} (member : point ∈ mockPoints) : fieldValue (ascii point.hdop) < 2000000 := by
  obtain ⟨first, second, third⟩ := fieldValue_hdop
  simp only [mockPoints, List.mem_cons, List.not_mem_nil, or_false] at member
  rcases member with rfl | rfl | rfl
  · norm_num [first]
  · norm_num [second]
  · norm_num [third]

/-- The `index`-th fix of the route. -/
def mockFix (now : StructTime) (index : Nat) {point : MockPoint} (member : point ∈ mockPoints) : RoutePoint :=
  have time : IsTime (mockTimestamp now index) := isTime_of_formats _ _ _
  have day : IsTime now.date := isTime_of_formats _ _ _
  mockRoutePoint time day (fine_of_mem member) (hdop_inRange member)

def mockRoute (now : StructTime) : List RoutePoint :=
  mockPoints.attach.mapIdx fun index point => mockFix now index point.property

/-- What the parser makes of the route. -/
def mockCandidates (now : StructTime) (inputEpoch : UInt32) : List GnssCandidate :=
  (mockPoints.zip [1400, 1000, 600]).mapIdx fun index (point, hdopMilli) =>
    let (gga, rmc) := mockSentences now index point
    ⟨gga, rmc, hdopMilli, inputEpoch⟩

theorem mockRoute_stream (now : StructTime) : (mockRoute now).flatMap RoutePoint.stream = (makeMockRoute now).1.flatten := by
  simp [mockRoute, makeMockRoute, mockPoints, mockFix, mockRoutePoint, RoutePoint.stream, mockSentences]

theorem mockRoute_candidates (now : StructTime) (inputEpoch : UInt32) :
    (mockRoute now).map (·.candidate inputEpoch) = mockCandidates now inputEpoch := by
  obtain ⟨first, second, third⟩ := fieldValue_hdop
  simp [mockRoute, mockCandidates, mockPoints, mockFix, mockRoutePoint, RoutePoint.candidate, mockSentences, first, second, third]
  norm_num

theorem mockRoute_parsed (now : StructTime) (inputEpoch : UInt32) :
    (NmeaParserState.reset.feedAll inputEpoch (makeMockRoute now).1.flatten).2 = mockCandidates now inputEpoch := by
  rw [← mockRoute_stream, route_feedAll inputEpoch (mockRoute now) rfl, mockRoute_candidates]

theorem strip_within (sentence : List UInt8) : strip sentence <:+: sentence :=
  (List.rdropWhile_prefix _ _).isInfix.trans (List.dropWhile_suffix _).isInfix

/-- A chunk of the route holds sentences that are expected. -/
theorem chunk_expected {now : StructTime} {chunk : List UInt8} (member : chunk ∈ (makeMockRoute now).1) :
    hasMockSentence (makeMockRoute now).2 chunk = true := by
  obtain ⟨⟨gga, rmc⟩, listed, rfl⟩ := List.mem_map.mp member
  apply List.any_eq_true.mpr
  refine ⟨strip gga, List.mem_flatMap.mpr ⟨(gga, rmc), listed, List.mem_cons_self⟩, ?_⟩
  exact decide_eq_true ((strip_within gga).trans (List.prefix_append gga rmc).isInfix)

/-- The lines of a candidate of the route are a chunk of it. -/
theorem mockCandidate_chunk {now : StructTime} {inputEpoch : UInt32} {pair : GnssCandidate}
    (member : pair ∈ mockCandidates now inputEpoch) : pair.gga ++ pair.rmc ∈ (makeMockRoute now).1 := by
  simp only [mockCandidates, makeMockRoute, mockPoints, List.zip_cons_cons, List.zip_nil_left, List.mapIdx_cons,
    List.mapIdx_nil, List.map_cons, List.map_nil, List.mem_cons, List.not_mem_nil, or_false] at member ⊢
  rcases member with rfl | rfl | rfl
  · exact .inl rfl
  · exact .inr (.inl rfl)
  · exact .inr (.inr rfl)

theorem mockCandidate_hdop {now : StructTime} {inputEpoch : UInt32} {pair : GnssCandidate}
    (member : pair ∈ mockCandidates now inputEpoch) : 600 ≤ pair.hdopMilli := by
  simp only [mockCandidates, mockPoints, List.zip_cons_cons, List.zip_nil_left, List.mapIdx_cons,
    List.mapIdx_nil, List.mem_cons, List.not_mem_nil, or_false] at member
  rcases member with rfl | rfl | rfl <;> simp

theorem exists_mockCandidate (now : StructTime) (inputEpoch : UInt32) :
    ∃ pair ∈ mockCandidates now inputEpoch, pair.hdopMilli = 600 :=
  ⟨_, List.mem_cons_of_mem _ (List.mem_cons_of_mem _ List.mem_cons_self), rfl⟩

/-- The candidate queue was full when a pair of the session was completed. -/
def GnssEvent.dropsIn (session : Nat) : GnssEvent → Bool
  | .dropped c => c.session = session
  | _ => false

/-- What the test finds in the publications of an upload. -/
structure MockTestPasses (now : StructTime) (session : Nat) (history : List GnssEvent) : Prop where
  /-- The parser completes the three fixes, in order. -/
  completed : ∃ inputEpoch, completedIn session history =
    (mockCandidates now inputEpoch).map fun pair => { pair with source := .override, session }
  /-- Every publication of the upload passes. -/
  each : ∀ c publication, .published c publication ∈ history → c.session = session →
    publication.data ∈ (makeMockRoute now).1 ∧ hasMockSentence (makeMockRoute now).2 publication.data = true
  /-- The best fix had been published when the parser was handed back. -/
  best : ∃ before later, history = before ++ .closed session :: later ∧
    ∃ c publication, .published c publication ∈ before ∧ c.session = session ∧ publication.hdopMilli = 600

/-- When an override that has uploaded the route is closed, and no pair of it has been dropped, the
    test passes. -/
theorem mock_test_passes {history : List GnssEvent} {s : GnssStack} {session : Nat} {now : StructTime}
    (run : (gnssSystem.guarded ClearsForUart).Exec history s) (closed : .closed session ∈ history)
    (uploaded : acceptedBytes session .override history = (makeMockRoute now).1.flatten)
    (kept : ∀ event ∈ history, event.dropsIn session = false) : MockTestPasses now session history := by
  have ran := run.of_guarded
  obtain ⟨-, -, genuine, before, later, split, best⟩ := uploadOutcome_of_closed ran closed
  obtain ⟨_, _, _, _, _, known⟩ := closedAt_of_exec ran closed
  obtain ⟨source, inputEpoch, parsed⟩ := (parsed_uncut run).past session known.past
  obtain rfl : source = .override := by
    by_contra other
    have nothing := parsed.alone .override (Ne.symm other)
    rw [uploaded] at nothing
    cases nothing
  have completed : completedIn session history = (mockCandidates now inputEpoch).map fun pair =>
      { pair with source := .override, session } := by
    rw [parsed.completed, parsedFrom_zero, uploaded, mockRoute_parsed]
  have ofRoute {c : Candidate} (member : c ∈ completedIn session history) :
      c.toGnssCandidate ∈ mockCandidates now inputEpoch := by
    rw [completed] at member
    obtain ⟨pair, listed, rfl⟩ := List.mem_map.mp member
    exact listed
  constructor
  · exact ⟨inputEpoch, completed⟩
  · intro c publication written during
    obtain ⟨member, data⟩ := genuine c publication written during
    have chunk := mockCandidate_chunk (ofRoute member)
    rw [data]
    exact ⟨chunk, chunk_expected chunk⟩
  · obtain ⟨pair, listed, hdop⟩ := exists_mockCandidate now inputEpoch
    have member : { pair with source := .override, session } ∈ completedIn session history := by
      rw [completed]
      exact List.mem_map.mpr ⟨pair, listed, rfl⟩
    obtain ⟨sent | dropped, -⟩ := mem_completedIn.mp member
    · obtain ⟨c, publication, written, during, least⟩ := best _ sent rfl
      have happened : .published c publication ∈ history := by
        rw [split]
        exact List.mem_append_left _ written
      have above := mockCandidate_hdop (ofRoute (genuine c publication happened during).1)
      refine ⟨before, later, split, c, publication, written, during, ?_⟩
      rw [(genuinePublication_of_exec ran c publication happened).hdopMilli]
      exact le_antisymm (least.trans hdop.le) above
    · exact absurd (kept _ dropped) (by simp [GnssEvent.dropsIn])

/-- 3:04:05 on the 2nd of January 2024. -/
def sampleTime : StructTime := ⟨2024, 1, 2, 3, 4, 5⟩

def mockSchedule : List GnssAction :=
  let upload := (makeMockRoute sampleTime).1.flatten
  List.flatten
    [[.overrideBegin, .overrideFeed upload], List.replicate upload.length .feedByte,
      [.feedReturn, .endEnter 0, .endDiscard 0, .endSend 0], List.replicate 15 .filterStep, [.endTake 0, .endClose 0]]

def mockRun : Option (GnssStack × List GnssEvent) :=
  System.replay (fun s action => if ClearsForUart s action then s.next action else none) .initial mockSchedule

set_option maxRecDepth 8000 in
theorem mockRun_uploads : mockRun.any (fun (_, history) => decide (.closed 1 ∈ history ∧
    acceptedBytes 1 .override history = (makeMockRoute sampleTime).1.flatten ∧
      ∀ event ∈ history, event.dropsIn 1 = false)) = true := by
  decide +kernel

theorem mockRun_passes : ∃ s history, mockRun = some (s, history) ∧ MockTestPasses sampleTime 1 history := by
  obtain ⟨⟨s, history⟩, played, facts⟩ := (Option.any_eq_true _ _).mp mockRun_uploads
  obtain ⟨closed, uploaded, kept⟩ := of_decide_eq_true facts
  exact ⟨s, history, played, mock_test_passes (System.Exec.guarded_of_replay played) closed uploaded kept⟩

end EspGnss.Gnss
