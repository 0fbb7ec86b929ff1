import EspGnss.Gnss.Integrity

/-! # UART2 input after an override

`gnss_input_override_end` clears the parser. From then on UART2 feeds it, so that its
state is what the bytes of UART2 since then make of a cleared one.
-/

namespace EspGnss.Gnss

open Foundation Nmea

structure Resumed (history : List GnssEvent) (s : GnssStack) : Prop where
  /-- Before `gnss_init_task` has cleared the parser UART2 has fed nothing. -/
  unfed : s.uartReady = false → ∀ session byte, .accepted session .uart byte ∉ history
  idle : s.uartReady = false → ∀ data, s.mutex ≠ some ⟨.uart, data⟩
  parser : s.input.overrideActive = false → s.input.parserState =
    (NmeaParserState.reset.feedAll s.input.inputEpoch (acceptedBytes s.session .uart history)).1

namespace Resumed

variable {history events : List GnssEvent} {s s' : GnssStack} {action : GnssAction}

/-- A step that feeds nothing. -/
theorem same (h : Resumed history s) (unfed : ∀ session source byte, .accepted session source byte ∉ events)
    (session : s'.session = s.session) (active : s'.input.overrideActive = s.input.overrideActive)
    (epoch : s'.input.inputEpoch = s.input.inputEpoch) (parser : s'.input.parserState = s.input.parserState)
    (ready : s'.uartReady = s.uartReady)
    (idle : s.uartReady = false → ∀ data, s'.mutex = some ⟨.uart, data⟩ → ∃ data', s.mutex = some ⟨.uart, data'⟩) :
    Resumed (history ++ events) s' := by
  constructor
  · intro unready se byte mem
    rw [ready] at unready
    exact h.unfed unready se byte ((List.mem_append.mp mem).resolve_right (unfed se .uart byte))
  · intro unready data held
    rw [ready] at unready
    obtain ⟨data', held⟩ := idle unready data held
    exact h.idle unready data' held
  · intro inactive
    rw [active] at inactive
    rw [parser, epoch, session, acceptedBytes_append, acceptedBytes_eq_nil (unfed _ _), List.append_nil]
    exact h.parser inactive

/-- A byte that is fed. -/
theorem feeds (h : Resumed history s) (handshake : Handshake (exchange history s)) (fits : s.input.parserState.Fits)
    {source : Source} {byte : UInt8} {rest : List UInt8} {parserState : NmeaParserState} {pair : Option GnssCandidate}
    (held : s.mutex = some ⟨source, byte :: rest⟩)
    (fed : nmeaParserFeedByte s.input.inputEpoch s.input.parserState byte = some (parserState, pair))
    (only : ∀ session source' byte', .accepted session source' byte' ∈ events → source' = source)
    (stream : acceptedBytes s.session source events = [byte]) (input : s'.input = { s.input with parserState })
    (session : s'.session = s.session) (ready : s'.uartReady = s.uartReady) (mutex : s'.mutex = some ⟨source, rest⟩) :
    Resumed (history ++ events) s' := by
  have other : s.uartReady = false → source ≠ .uart := by
    rintro unready rfl
    exact h.idle unready _ held
  constructor
  · intro unready se byte' mem
    rw [ready] at unready
    rcases List.mem_append.mp mem with old | new
    · exact h.unfed unready se byte' old
    · exact other unready (only _ _ _ new).symm
  · intro unready data held
    rw [ready] at unready
    rw [mutex] at held
    cases held
    exact other unready rfl
  · intro inactive
    rw [input] at inactive
    have inactive : s.input.overrideActive = false := inactive
    have owner : source = s.input.owner := owner_of_feeding handshake held
    have uart : s.input.owner = .uart := by rw [GnssInput.owner, inactive]; rfl
    obtain rfl : source = .uart := owner.trans uart
    rw [nmeaParserFeedByte_spec _ fits, h.parser inactive] at fed
    rw [input, session, acceptedBytes_append, stream, NmeaParserState.feedAll_append]
    exact congrArg Prod.fst (Option.some.inj fed).symm

theorem step (h : Resumed history s) (run : gnssSystem.Exec history s) (next : s.next action = some (s', events)) :
    Resumed (history ++ events) s' := by
  have handshake := handshake_of_exec run
  have fits := fits_of_exec run
  have known := integrity_of_exec run
  by_cases unfinished : s' = s ∧ events = []
  · obtain ⟨rfl, rfl⟩ := unfinished
    rwa [List.append_nil]
  cases Transition.of_next next with
  | refused => exact absurd ⟨rfl, rfl⟩ unfinished
  | initReset free =>
      have unready : s.uartReady = false := by simpa [GnssStack.next, free] using next
      rw [List.append_nil]
      refine ⟨fun _ => h.unfed unready, by simp, fun _ => ?_⟩
      rw [acceptedBytes_eq_nil (h.unfed unready _)]
      rfl
  | uartFeed free inactive =>
      have ready : s.uartReady = true := by
        simp [GnssStack.next, free] at next
        exact next.1
      refine h.same (by simp) rfl rfl rfl rfl rfl fun unready => ?_
      rw [unready] at ready
      cases ready
  | overrun held fault =>
      rw [nmeaParserFeedByte_spec _ fits] at fault
      cases fault
  | scanned held fed =>
      exact h.feeds handshake fits held fed (by simp +contextual) (by simp [acceptedBytes]) rfl rfl rfl rfl
  | dropped held fed =>
      exact h.feeds handshake fits held fed (by simp +contextual) (by simp [acceptedBytes]) rfl rfl rfl rfl
  | paired held fed =>
      exact h.feeds handshake fits held fed (by simp +contextual) (by simp [acceptedBytes]) rfl rfl rfl rfl
  | overrideBegin =>
      refine ⟨fun unready se byte mem => ?_, h.idle, ?_⟩
      · exact h.unfed unready se byte (by simpa using mem)
      · intro inactive
        cases inactive
  | endClose free call =>
      refine ⟨fun unready se byte mem => ?_, h.idle, fun _ => ?_⟩
      · exact h.unfed unready se byte (by simpa using mem)
      · have fresh : acceptedBytes (s.session + 1) .uart (history ++ [.closed s.session]) = [] := by
          apply acceptedBytes_eq_nil
          intro byte mem
          have past := known.past (s.session + 1) .uart byte (by simpa using mem)
          omega
        change NmeaParserState.reset = (NmeaParserState.reset.feedAll _ (acceptedBytes (s.session + 1) _ _)).1
        rw [fresh]
        rfl
  | @receive member =>
      obtain ⟨queueSet, pc, same⟩ := s.receiveSelected_eq member
      rw [same]
      exact h.same (by simp) rfl rfl rfl rfl rfl fun _ data held => ⟨data, held⟩
  | overrideFeed | feedReturn =>
      exact h.same (by simp) rfl rfl rfl rfl rfl fun _ data held => by cases held
  | _ => exact h.same (by simp) rfl rfl rfl rfl rfl fun _ data held => ⟨data, held⟩

end Resumed

theorem resumed_of_exec {history : List GnssEvent} {s : GnssStack} (run : gnssSystem.Exec history s) :
    Resumed history s := by
  refine System.Exec.invariant (I := Resumed) (fun s start => ?_)
    (fun history s action s' events earlier h step => h.step earlier step) run
  cases start
  exact ⟨fun _ _ _ => List.not_mem_nil, by simp [GnssStack.initial], fun _ => rfl⟩

end EspGnss.Gnss
