import EspGnss.Gnss.BaudLock
import EspGnss.Nmea.Line

/-! # From the probe to the parser

The chunk that proved the baud rate is fed to the parser. The line that proved it is
handed over exactly when all of it is in that chunk.
-/

namespace EspGnss.Gnss

open Foundation Nmea

/-- Feeding the byte runs `nmea_parser_complete_sentence` on the line. -/
def Completes (state : NmeaParserState) (byte : UInt8) (line : List UInt8) : Prop :=
  byte = lineFeed ∧ state.inSentence = true ∧ state.sentence.length < gnssNmeaMaxSentenceLen ∧
    line = state.sentence ++ [byte]

/-- The parser that is fed `chunk` from its reset state completes the line where the probe
    did, with `rest` behind it, and ends like one fed the stream from the `$` of the line on. -/
structure HandedOver (inputEpoch : UInt32) (chunk line rest : List UInt8) (after : NmeaParserState) : Prop where
  completed : ∃ before, chunk = before ++ lineFeed :: rest ∧
    Completes (NmeaParserState.reset.feedAll inputEpoch before).1 lineFeed line
  state : after = (NmeaParserState.reset.feedAll inputEpoch (line ++ rest)).1

/-- Two parsers that have paired the same. -/
structure SamePairing (state state' : NmeaParserState) : Prop where
  hasPendingGga : state.hasPendingGga = state'.hasPendingGga
  pendingGga : state.pendingGga = state'.pendingGga
  hdopMilli : state.pendingGgaHdopMilli = state'.pendingGgaHdopMilli

section Quiet

variable {inputEpoch : UInt32} {state state' : NmeaParserState}

/-- A `$` makes the lines before it forgotten. -/
theorem SamePairing.feedAll (same : SamePairing state state') (data : List UInt8) :
    state.feedAll inputEpoch (dollar :: data) = state'.feedAll inputEpoch (dollar :: data) := by
  have opened : state.feed inputEpoch dollar = state'.feed inputEpoch dollar := by
    simp [NmeaParserState.feed, same.hasPendingGga, same.pendingGga, same.hdopMilli]
  rw [NmeaParserState.feedAll, NmeaParserState.feedAll, opened]

/-- The pairing only uses lines that prove a rate. -/
theorem lineKind_of_unproven {line : List UInt8} (unproven : ¬ ProvesRate line) : lineKind line = .other := by
  rw [lineKind]
  by_cases valid : ChecksumValid line
  · have unknown : lineType line ∉ probeTypes := fun known => unproven ⟨valid, known⟩
    have notGga : lineType line ≠ ggaType := fun same => unknown (same ▸ by decide)
    have notRmc : lineType line ≠ rmcType := fun same => unknown (same ▸ by decide)
    simp [valid, hdopMilli, notGga, notRmc]
  · rw [if_neg valid]

theorem feed_openLine (byte : UInt8) :
    openLine (state.feed inputEpoch byte).1 = lineFraming.scan (openLine state) byte := by
  rcases feed_cases inputEpoch state byte with ⟨sentence, -, scanned, fed⟩ | ⟨-, inSentence, sentence, fed, scanned⟩
  · rw [fed, scanned]
    rfl
  · rw [fed, scanned]

/-- A byte that completes no line proving a rate leaves the pairing alone. -/
theorem feed_unproven {byte : UInt8}
    (unproven : ∀ line, lineFraming.emit (openLine state) byte = some line → ¬ ProvesRate line) :
    SamePairing (state.feed inputEpoch byte).1 state := by
  rcases feed_cases inputEpoch state byte with ⟨sentence, emitted, -, fed⟩ | ⟨-, inSentence, sentence, fed, -⟩
  · have kind := lineKind_of_unproven (unproven sentence emitted)
    rw [fed, NmeaParserState.complete]
    simp only [kind]
    exact ⟨rfl, rfl, rfl⟩
  · rw [fed]
    exact ⟨rfl, rfl, rfl⟩

theorem feedAll_unproven {data : List UInt8} (unproven : lineFraming.search ProvesRate (openLine state) data = none) :
    SamePairing (state.feedAll inputEpoch data).1 state := by
  induction data generalizing state with
  | nil => exact ⟨rfl, rfl, rfl⟩
  | cons byte rest ih =>
      obtain ⟨passed, later⟩ := lineFraming.passed_of_search_none unproven
      have here := @feed_unproven inputEpoch state byte passed
      have behind := @ih (state.feed inputEpoch byte).1 (by rw [feed_openLine]; exact later)
      exact ⟨behind.hasPendingGga.trans here.hasPendingGga, behind.pendingGga.trans here.pendingGga,
        behind.hdopMilli.trans here.hdopMilli⟩

end Quiet

section Refeed

variable {earlier chunk line rest : List UInt8}

/-- The line that is found lies behind its `$` without a gap. -/
theorem emitted_frame {stream inner : List UInt8} (tracks : lineFraming.Tracks stream (some inner)) :
    ∃ body, inner = dollar :: body ∧ dollar ∉ body ∧ lineFeed ∉ body := by
  obtain ⟨-, body, shape, noStart, noEnd, -⟩ := (tracks inner).mp rfl
  exact ⟨body, shape, noStart, noEnd⟩

theorem handedOver_iff (inputEpoch : UInt32) (unproven : lineFraming.search ProvesRate none earlier = none)
    (found : lineFraming.search ProvesRate none (earlier ++ chunk) = some (line, rest)) :
    HandedOver inputEpoch chunk line rest (NmeaParserState.reset.feedAll inputEpoch chunk).1 ↔ line ++ rest <:+ chunk := by
  rw [Framing.search_append, unproven] at found
  obtain ⟨before, split, quiet, emitted, -⟩ := lineFraming.search_some found
  have closing : lineFraming.closing = lineFeed := rfl
  rw [closing] at split emitted
  constructor
  · intro handed
    obtain ⟨before', split', -, inside, -, same⟩ := handed.completed
    obtain ⟨rfl, -⟩ : before = before' ∧ _ := List.append_inj' (split.symm.trans split') rfl
    -- what the parser has open there is a part of the chunk
    have tracks := (describes_reset.feedAll inputEpoch before).line
    rw [openLine, if_pos inside, List.nil_append] at tracks
    obtain ⟨skipped, whole⟩ := ((tracks _).mp rfl).1
    have extended := congrArg (· ++ lineFeed :: rest) whole
    exact ⟨skipped, by simpa [same, split] using extended⟩
  · intro inChunk
    obtain ⟨skipped, whole⟩ := inChunk
    have tracks := lineFraming.tracks_nil.foldl lineFraming (earlier ++ before)
    rw [List.foldl_append, List.nil_append] at tracks
    generalize (before.foldl lineFraming.scan (earlier.foldl lineFraming.scan none)) = held at emitted tracks
    cases held with
    | none => cases emitted
    | some inner =>
        rw [Framing.emit] at emitted
        split at emitted
        swap
        · cases emitted
        rename_i done
        have room : inner.length < gnssNmeaMaxSentenceLen := done.2
        cases emitted
        obtain ⟨body, rfl, noStart, noEnd⟩ := emitted_frame tracks
        have cut : before = skipped ++ dollar :: body := by
          have same := whole.trans split
          simp only [List.append_assoc, List.cons_append] at same
          rw [← List.cons_append, ← List.append_assoc] at same
          exact (List.append_inj' same rfl).1.symm
        have openSkipped : lineFraming.search ProvesRate (openLine .reset) skipped = none := by
          rw [cut] at quiet
          exact lineFraming.search_none_of (lineFraming.search_prefix quiet)
        have kept := @feedAll_unproven inputEpoch .reset skipped openSkipped
        have lineStart : body.length < gnssNmeaMaxSentenceLen := Nat.lt_of_succ_lt room
        constructor
        · refine ⟨before, split, rfl, ?_⟩
          rw [cut, NmeaParserState.feedAll_append, NmeaParserState.feedAll_open inputEpoch noStart noEnd lineStart]
          exact ⟨rfl, room, rfl⟩
        · rw [← whole, NmeaParserState.feedAll_append]
          simp only [List.cons_append]
          rw [kept.feedAll]

end Refeed

/-- Until the task feeds the parser, only an override does. -/
def Untouched (s : BaudScan) : Prop :=
  s.phase ≠ .ended → s.input.overrideActive = false → s.input.parserState = .reset

section Runs

variable {pdMsToTicks : UInt32 → UInt32} {history : List ScanEvent} {s s' : BaudScan} {events : List ScanEvent}

theorem read_input {count : Nat} (stepped : s.next pdMsToTicks (.read count) = some (s', events)) :
    s'.input = s.input ∧ s.phase = .reading := by
  rw [BaudScan.next] at stepped
  split at stepped
  swap
  · cases stepped
  rename_i ready
  apply And.intro _ ready.1
  split at stepped
  · obtain ⟨probed, -, same⟩ := Option.bind_eq_some_iff.mp stepped
    cases same
    rfl
  · cases stepped
    rfl

theorem Untouched.advance (untouched : Untouched s) (stepped : s.advance pdMsToTicks = some (s', events)) :
    Untouched s' := by
  rw [BaudScan.advance] at stepped
  cases phase : s.phase <;> simp only [phase] at stepped
  case clearing =>
      cases stepped
      intro _ _
      rfl
  case feeding =>
      obtain ⟨fed, -, same⟩ := Option.bind_eq_some_iff.mp stepped
      cases same
      intro running
      exact absurd rfl running
  case reading | ended => cases stepped
  all_goals
    have kept : s'.input = s.input := by grind [Option.bind_eq_some_iff]
    intro _ inactive
    rw [kept] at inactive ⊢
    exact untouched (by simp [phase]) inactive

/-- An override takes a reset parser and returns a reset parser. -/
theorem untouched_of_exec (run : (baudScanSystem pdMsToTicks).Exec history s) : Untouched s := by
  refine run.invariant (I := fun _ s => Untouched s) ?_ ?_
  · intro s first
    obtain rfl : s = .initial := first
    intro _ _
    rfl
  · intro history s a s' events _ untouched stepped
    have stepped : s.next pdMsToTicks a = some (s', events) := stepped
    cases a with
    | tick =>
        cases stepped
        exact untouched
    | receive byte =>
        rw [BaudScan.next] at stepped
        split at stepped <;> cases stepped
        exact untouched
    | read count =>
        obtain ⟨kept, phase⟩ := read_input stepped
        intro _ inactive
        rw [kept] at inactive ⊢
        exact untouched (by simp [phase]) inactive
    | advance => exact untouched.advance stepped
    | overrideBegin =>
        cases stepped
        intro _ inactive
        simp only [gnssInputOverrideBegin] at inactive ⊢
        grind
    | overrideFeed data =>
        obtain ⟨fed, accepted, same⟩ := Option.bind_eq_some_iff.mp stepped
        cases same
        rw [gnssInputOverrideFeed] at accepted
        split at accepted
        · cases accepted
          exact untouched
        split at accepted
        · cases accepted
          exact untouched
        · rename_i accepting
          have active : s.input.overrideActive = true := by grind
          obtain ⟨bytes, -, fedAll⟩ := Option.bind_eq_some_iff.mp accepted
          obtain ⟨parsed, -, same⟩ := Option.bind_eq_some_iff.mp fedAll
          cases same
          intro _ inactive
          exact absurd (active.symm.trans inactive) (by decide)
    | overrideEndEnter =>
        cases stepped
        intro running inactive
        simp only [gnssInputOverrideEndEnter] at inactive ⊢
        grind [Untouched]
    | overrideEndClose =>
        rw [BaudScan.next] at stepped
        split at stepped <;> cases stepped
        intro _ _
        rfl

end Runs

/-- In every run, the chunk that proved the rate is fed to a reset parser unless an override
    is active, and hands the line that proved it over exactly when the line's `$` is in it. -/
theorem rate_line_handed_over_iff (pdMsToTicks : UInt32 → UInt32) {history events : List ScanEvent} {s s' : BaudScan}
    (run : (baudScanSystem pdMsToTicks).Exec history s) {chunk : List UInt8} (feeding : s.phase = .feeding chunk)
    (inactive : s.input.overrideActive = false)
    (fed : s.next pdMsToTicks .advance = some (s', events)) :
    ∃ earlier line rest,
      (ScanRecord.of history).reads = earlier ++ [chunk] ∧
      lineFraming.search ProvesRate none (ScanRecord.of history).reads.flatten = some (line, rest) ∧
      (HandedOver s.input.inputEpoch chunk line rest s'.input.parserState ↔ line ++ rest <:+ chunk) := by
  have scanning := (scanning_of_exec run).1
  rw [Scanning, feeding] at scanning
  obtain ⟨earlier, reads, unproven, something⟩ := scanning.reads
  obtain ⟨⟨line, rest⟩, found⟩ := Option.isSome_iff_exists.mp something
  have clean := untouched_of_exec run (by simp [feeding]) inactive
  have parsed : s'.input.parserState = (NmeaParserState.reset.feedAll s.input.inputEpoch chunk).1 := by
    simp only [BaudScan.next, BaudScan.advance, feeding, gnssUartInputFeed, inactive, clean,
      nmeaParserFeed_spec _ NmeaParserState.Fits.reset] at fed
    cases fed
    rfl
  refine ⟨earlier, line, rest, reads, by simpa [reads] using found, ?_⟩
  rw [parsed]
  exact handedOver_iff s.input.inputEpoch unproven found

/-- The line of `provingLine`, cut after `count` bytes by two reads. -/
def cutSchedule (count : Nat) : List ScanAction :=
  List.replicate 5 .advance ++ provingLine.map .receive ++
    [.read count, .advance, .read (provingLine.length - count), .advance]

def cutHistory (count : Nat) : List ScanEvent :=
  [.rateSet 4800, .baudSet 0 0, .rateSet 4800, .flushed] ++ provingLine.map .received ++
    ([provingLine.take count, provingLine.drop count].filter (· ≠ [])).map .read ++ [.locked 0]

theorem cut_exec {count : Nat} (played : (System.replay (BaudScan.next id) .initial (cutSchedule count)).map
      (fun run => (run.2, run.1.phase, run.1.input)) = some (cutHistory count, .feeding (provingLine.drop count), .initial)) :
    ∃ s s' events, (baudScanSystem id).Exec (cutHistory count) s ∧ s.phase = .feeding (provingLine.drop count) ∧
      s.input = .initial ∧ s.next id .advance = some (s', events) ∧
      s'.input.parserState = (NmeaParserState.reset.feedAll 1 (provingLine.drop count)).1 := by
  obtain ⟨⟨s, history⟩, played, same⟩ := Option.map_eq_some_iff.mp played
  simp only [Prod.mk.injEq] at same
  obtain ⟨rfl, feeding, input⟩ := same
  have fed : s.next id .advance = some ({ s with
      phase := .ended
      input := { s.input with parserState := (NmeaParserState.reset.feedAll 1 (provingLine.drop count)).1 } }, []) := by
    simp [BaudScan.next, BaudScan.advance, feeding, gnssUartInputFeed, input, GnssInput.initial,
      nmeaParserFeed_spec _ NmeaParserState.Fits.reset]
  exact ⟨s, _, _, System.Exec.of_replay played, feeding, input, fed, rfl⟩

/-- Uncut, the line is handed over. -/
theorem whole_line_handed_over : ∃ s s' events,
    (baudScanSystem id).Exec (cutHistory 0) s ∧ s.next id .advance = some (s', events) ∧
      HandedOver 1 provingLine provingLine [] s'.input.parserState := by
  obtain ⟨s, s', events, run, feeding, input, fed, -⟩ := @cut_exec 0 (by decide +kernel)
  have inactive : s.input.overrideActive = false := by rw [input]; rfl
  obtain ⟨earlier, line, rest, -, found, handed⟩ := rate_line_handed_over_iff id run feeding inactive fed
  have first : lineFraming.search ProvesRate none (ScanRecord.of (cutHistory 0)).reads.flatten = some (provingLine, []) := by
    decide +kernel
  rw [first, Option.some.injEq, Prod.mk.injEq] at found
  obtain ⟨rfl, rfl⟩ := found
  rw [input] at handed
  exact ⟨s, s', events, run, fed, handed.mpr ⟨[], rfl⟩⟩

/-- Cut by a short read, the line that proved the rate is lost: the parser is left reset. -/
theorem cut_line_lost : ∃ s s' events,
    (baudScanSystem id).Exec (cutHistory 5) s ∧ s.phase = .feeding (provingLine.drop 5) ∧
      s.input.overrideActive = false ∧ s.next id .advance = some (s', events) ∧
      lineFraming.search ProvesRate none (ScanRecord.of (cutHistory 5)).reads.flatten = some (provingLine, []) ∧
      s'.input.parserState = .reset ∧
      ¬ HandedOver s.input.inputEpoch (provingLine.drop 5) provingLine [] s'.input.parserState := by
  obtain ⟨s, s', events, run, feeding, input, fed, parsed⟩ := @cut_exec 5 (by decide +kernel)
  have skipped : NmeaParserState.reset.feedAll 1 (provingLine.drop 5) = (.reset, []) :=
    NmeaParserState.feedAll_skip 1 rfl (by decide)
  have first : lineFraming.search ProvesRate none (provingLine.take 5 ++ provingLine.drop 5) = some (provingLine, []) := by
    decide +kernel
  have notThere : ¬ provingLine ++ [] <:+ provingLine.drop 5 := by decide
  refine ⟨s, s', events, run, feeding, by rw [input]; rfl, fed, first, by rw [parsed, skipped], ?_⟩
  rw [parsed, input]
  intro handed
  have unproven : lineFraming.search ProvesRate none (provingLine.take 5) = none := by decide +kernel
  exact notThere ((handedOver_iff 1 unproven first).mp handed)

end EspGnss.Gnss
