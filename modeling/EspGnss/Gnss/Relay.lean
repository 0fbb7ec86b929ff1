import EspGnss.Gnss.Integrity
import EspGnss.Gnss.Numbering
import EspGnss.Nmea.Line

/-! # Published pairs parsed again

The lines of a publication are what the parser took them for: a parser that is fed
publications, one after the other, gets their pairs back, whatever it held before.
-/

namespace EspGnss.Gnss

open Foundation Nmea

/-- The first line is a GGA line with this HDOP, the second an RMC line. -/
structure PairKind (gga rmc : List UInt8) (hdopMilli : Int) : Prop where
  gga : lineKind gga = .gga hdopMilli
  rmc : lineKind rmc = .rmc

/-- A waiting GGA line has the HDOP that is stored with it. -/
def KeepsHdop (state : NmeaParserState) : Prop :=
  state.hasPendingGga = true → lineKind state.pendingGga = .gga state.pendingGgaHdopMilli

theorem keepsHdop_reset : KeepsHdop .reset := nofun

theorem KeepsHdop.fed {inputEpoch : UInt32} {state after : NmeaParserState} {byte : UInt8}
    {pair : Option GnssCandidate} (keeps : KeepsHdop state) (fed : Fed inputEpoch state byte after pair) :
    KeepsHdop after ∧ ∀ candidate, pair = some candidate → PairKind candidate.gga candidate.rmc candidate.hdopMilli := by
  cases fed with
  | start | skip | overlong | store | other => exact ⟨keeps, nofun⟩
  | gga ends inside room kind => exact ⟨fun _ => kind, nofun⟩
  | rmc ends inside room kind pending =>
      constructor
      · exact nofun
      · intro candidate same
        cases same
        exact ⟨keeps pending, kind⟩

/-- A parser that is fed a frame completes it, whatever it did before. -/
theorem feedAll_frame (inputEpoch : UInt32) (state : NmeaParserState) {line : List UInt8}
    (frame : lineFraming.IsFrame line) :
    state.feedAll inputEpoch line =
      let whole := { state with inSentence := true, sentence := line }
      ((whole.complete inputEpoch).1.idle, (whole.complete inputEpoch).2.toList) := by
  obtain ⟨inner, rfl, noStart, noEnd, fits⟩ := frame
  have room : inner.length + 2 ≤ gnssNmeaMaxSentenceLen := by
    rw [List.length_cons, List.length_append] at fits
    exact fits
  exact NmeaParserState.feedAll_line inputEpoch noStart noEnd room

/-- A pair is emitted as it is, whatever the parser did before. -/
theorem feedAll_pair (inputEpoch : UInt32) (state : NmeaParserState) {gga rmc : List UInt8} {hdopMilli : Int}
    (ggaFrame : lineFraming.IsFrame gga) (rmcFrame : lineFraming.IsFrame rmc) (kind : PairKind gga rmc hdopMilli) :
    state.feedAll inputEpoch (gga ++ rmc) =
      (⟨false, [], false, [], hdopMilli⟩, [⟨gga, rmc, hdopMilli, inputEpoch⟩]) := by
  have waiting : state.feedAll inputEpoch gga = (⟨false, [], true, gga, hdopMilli⟩, []) := by
    rw [feedAll_frame inputEpoch state ggaFrame]
    simp only [NmeaParserState.complete, kind.gga]
    rfl
  have paired (state : NmeaParserState) (pending : state.hasPendingGga = true) : state.feedAll inputEpoch rmc =
      (⟨false, [], false, [], state.pendingGgaHdopMilli⟩,
        [⟨state.pendingGga, rmc, state.pendingGgaHdopMilli, inputEpoch⟩]) := by
    rw [feedAll_frame inputEpoch state rmcFrame]
    simp only [NmeaParserState.complete, kind.rmc, pending]
    rfl
  rw [NmeaParserState.feedAll_append, waiting]
  simp only [paired ⟨false, [], true, gga, hdopMilli⟩ rfl]
  rfl

/-- Pairs fed one after the other are emitted one after the other. -/
theorem feedAll_pairs (inputEpoch : UInt32) (state : NmeaParserState) (candidates : List GnssCandidate)
    (frames : ∀ c ∈ candidates, lineFraming.IsFrame c.gga ∧ lineFraming.IsFrame c.rmc)
    (kinds : ∀ c ∈ candidates, PairKind c.gga c.rmc c.hdopMilli) :
    (state.feedAll inputEpoch (candidates.flatMap fun c => c.gga ++ c.rmc)).2 =
      candidates.map ({ · with inputEpoch }) := by
  induction candidates generalizing state with
  | nil => rfl
  | cons c rest ih =>
      obtain ⟨gga, rmc⟩ := frames c List.mem_cons_self
      rw [List.flatMap_cons, NmeaParserState.feedAll_append,
        feedAll_pair inputEpoch state gga rmc (kinds c List.mem_cons_self)]
      simp [ih _ (fun c member => frames c (List.mem_cons_of_mem _ member))
        (fun c member => kinds c (List.mem_cons_of_mem _ member))]

/-- The parser keeps the HDOP of its GGA line, and every candidate is of the kind it is taken for. -/
structure Kinds (history : List GnssEvent) (s : GnssStack) : Prop where
  parser : KeepsHdop s.input.parserState
  sent : ∀ c ∈ candidatesOf (enqueued history), PairKind c.gga c.rmc c.hdopMilli

namespace Kinds

variable {history events : List GnssEvent} {s s' : GnssStack} {action : GnssAction}

theorem same (kinds : Kinds history s) (unsent : candidatesOf (enqueued events) = [])
    (parser : s'.input.parserState = s.input.parserState ∨ s'.input.parserState = .reset) :
    Kinds (history ++ events) s' := by
  constructor
  · rcases parser with kept | cleared
    · rw [kept]
      exact kinds.parser
    · rw [cleared]
      exact keepsHdop_reset
  · rw [enqueued_append, candidatesOf_append, unsent, List.append_nil]
    exact kinds.sent

theorem feeds (kinds : Kinds history s) {byte : UInt8} {parserState : NmeaParserState} {pair : Option GnssCandidate}
    (fed : Fed s.input.inputEpoch s.input.parserState byte parserState pair)
    (sent : ∀ c ∈ candidatesOf (enqueued events), pair = some c.toGnssCandidate)
    (parser : s'.input.parserState = parserState) : Kinds (history ++ events) s' := by
  obtain ⟨keeps, kind⟩ := kinds.parser.fed fed
  constructor
  · rw [parser]
    exact keeps
  · intro c member
    rw [enqueued_append, candidatesOf_append, List.mem_append] at member
    rcases member with before | now
    · exact kinds.sent c before
    · exact kind _ (sent c now)

theorem step (kinds : Kinds history s) (run : gnssSystem.Exec history s) (step : Transition s action s' events) :
    Kinds (history ++ events) s' := by
  have fits := fits_of_exec run
  cases step with
  | receive =>
      apply kinds.same rfl (.inl _)
      simp
  | initReset | overrideBegin | endClose => exact kinds.same rfl (.inr rfl)
  | overrun held fault =>
      rw [nmeaParserFeedByte_spec _ fits] at fault
      cases fault
  | scanned held fed | dropped held fed =>
      apply kinds.feeds (Transition.fed_of_feedByte fits fed) _ rfl
      intro c member
      cases member
  | paired held fed =>
      apply kinds.feeds (Transition.fed_of_feedByte fits fed) _ rfl
      intro c member
      cases List.mem_singleton.mp member
      rfl
  | _ => exact kinds.same rfl (.inl rfl)

end Kinds

theorem kinds_of_exec {history : List GnssEvent} {s : GnssStack} (run : gnssSystem.Exec history s) : Kinds history s := by
  induction run with
  | start first =>
      cases first
      exact ⟨keepsHdop_reset, nofun⟩
  | next run step ih => exact ih.step run (.of_next step)

/-- So is the pair of every publication. -/
theorem published_kind {history : List GnssEvent} {s : GnssStack} (run : gnssSystem.Exec history s) :
    ∀ c publication, .published c publication ∈ history → PairKind c.gga c.rmc c.hdopMilli := by
  induction run with
  | start first => exact nofun
  | @next history s action s' events run step ih =>
      intro c publication member
      rcases List.mem_append.mp member with before | now
      · exact ih c publication before
      · cases Transition.of_next step with
        | publish pc held copied =>
            cases List.mem_singleton.mp now
            exact (kinds_of_exec run).sent _ ((integrity_of_exec run).best _ held)
        | _ => simp at now

end EspGnss.Gnss
