import EspGnss.Gnss.Stack

/-! # What one step of the GNSS stack can do

One constructor for each kind of step, with its guard and its effect written
out. Invariants are proved by cases on this relation and never unfold the step
function.
-/

namespace EspGnss.Gnss

open Foundation Nmea

/-- The input variables after a successful `gnss_input_override_begin`. -/
abbrev GnssInput.overridden (input : GnssInput) : GnssInput :=
  ⟨.reset, true, false, gnssInputEpochAdvance input.inputEpoch⟩

inductive Transition (s : GnssStack) : GnssAction → GnssStack → List GnssEvent → Prop where
  | refused {action} : Transition s action s []
  | initReset : s.mutex = none →
      Transition s .initReset { s with input := { s.input with parserState := .reset }, uartReady := true } []
  | uartFeed {data} : s.mutex = none → s.input.overrideActive = false →
      Transition s (.uartFeed data) { s with mutex := some ⟨.uart, data⟩ } []
  | overrideFeed {data} : s.mutex = none → s.input.overrideActive = true →
      s.input.overrideClosing = false →
      Transition s (.overrideFeed data) { s with mutex := some ⟨.override, data⟩ } []
  | overrun {source byte rest} : s.mutex = some ⟨source, byte :: rest⟩ →
      nmeaParserFeedByte s.input.inputEpoch s.input.parserState byte = none →
      Transition s .feedByte { s with fault := true, mutex := some ⟨source, rest⟩ }
        [.accepted s.session source byte]
  | scanned {source byte rest parserState} : s.mutex = some ⟨source, byte :: rest⟩ →
      nmeaParserFeedByte s.input.inputEpoch s.input.parserState byte = some (parserState, none) →
      Transition s .feedByte
        { s with input := { s.input with parserState }, mutex := some ⟨source, rest⟩ }
        [.accepted s.session source byte]
  | paired {source byte rest parserState pair queueSet} : s.mutex = some ⟨source, byte :: rest⟩ →
      nmeaParserFeedByte s.input.inputEpoch s.input.parserState byte = some (parserState, some pair) →
      s.queueSet.send .candidate { pair with source, session := s.session } = some queueSet →
      Transition s .feedByte
        { s with input := { s.input with parserState }, mutex := some ⟨source, rest⟩, queueSet }
        [.accepted s.session source byte,
          .enqueued (.candidate { pair with source, session := s.session })]
  | dropped {source byte rest parserState pair} : s.mutex = some ⟨source, byte :: rest⟩ →
      nmeaParserFeedByte s.input.inputEpoch s.input.parserState byte = some (parserState, some pair) →
      s.queueSet.send .candidate { pair with source, session := s.session } = none →
      Transition s .feedByte
        { s with input := { s.input with parserState }, mutex := some ⟨source, rest⟩ }
        [.accepted s.session source byte, .dropped { pair with source, session := s.session }]
  | feedReturn {source} : s.mutex = some ⟨source, []⟩ → Transition s .feedReturn { s with mutex := none } []
  | overrideBegin : s.mutex = none → s.input.overrideActive = false →
      Transition s .overrideBegin { s with input := s.input.overridden, session := s.session + 1 }
        [.begun (s.session + 1)]
  | endEnter {task} : s.mutex = none → s.calls task = .idle → s.input.overrideActive = true →
      s.input.overrideClosing = false →
      Transition s (.endEnter task)
        ({ s with input := { s.input with overrideClosing := true } }.setCall task
          (.discarding ⟨s.input.inputEpoch⟩)) []
  | endDiscard {task control} : s.calls task = .discarding control →
      Transition s (.endDiscard task) ({ s with overrideFlushDone := false }.setCall task (.sending control)) []
  | endSend {task control queueSet} : s.calls task = .sending control →
      s.queueSet.send .control control = some queueSet →
      Transition s (.endSend task) ({ s with queueSet }.setCall task .waiting) [.enqueued (.control control)]
  | endTake {task} : s.calls task = .waiting → s.overrideFlushDone = true →
      Transition s (.endTake task) ({ s with overrideFlushDone := false }.setCall task .closing) []
  | endClose {task} : s.mutex = none → s.calls task = .closing →
      Transition s (.endClose task)
        ({ s with input := gnssInputOverrideEndClose s.input, session := s.session + 1 }.setCall task
          .idle) [.closed s.session]
  | timerExpire : (s.queueSet.member .timer).items = [] →
      Transition s .timerExpire { s with queueSet := s.queueSet.overwrite .timer rfl () } [.enqueued .timer]
  | timerCoalesced : (s.queueSet.member .timer).items ≠ [] →
      Transition s .timerExpire { s with queueSet := s.queueSet.overwrite .timer rfl () } []
  | select {member queueSet} : s.filter.pc = .selecting →
      s.queueSet.select = some (member, queueSet) →
      Transition s .filterStep ({ s with queueSet }.goto (.receiving member)) []
  | receive {member} : s.filter.pc = .receiving member →
      Transition s .filterStep (s.receiveSelected member) []
  | consider {candidate} : s.filter.pc = .considering candidate → s.mutex = none →
      Transition s .filterStep
        (s.keep .selecting (considerCandidate s.input.inputEpoch s.filter.bestCandidate candidate))
        [.considered candidate]
  | flush {control} : s.filter.pc = .checkingFlush control → s.mutex = none →
      control.inputEpoch = s.input.inputEpoch →
      Transition s .filterStep (s.goto (.publishing (.flush control))) []
  | ignore {control} : s.filter.pc = .checkingFlush control → s.mutex = none →
      control.inputEpoch ≠ s.input.inputEpoch →
      Transition s .filterStep (s.goto .acknowledging) [.ignored control]
  | decideNone {marker} : s.filter.pc = .publishing marker → s.mutex = none →
      dropStale s.input.inputEpoch s.filter.bestCandidate = none →
      Transition s .filterStep (s.keep marker.resume none) [.decided marker s.input.inputEpoch none]
  | decide {marker best} : s.filter.pc = .publishing marker → s.mutex = none →
      dropStale s.input.inputEpoch s.filter.bestCandidate = some best →
      Transition s .filterStep (s.keep (.writing marker) (some best))
        [.decided marker s.input.inputEpoch (some best)]
  | miscopied {marker best} : s.filter.pc = .writing marker → s.filter.bestCandidate = some best →
      publicationOf s.filter.nextSequence best.toGnssCandidate = none →
      Transition s .filterStep
        { s with filter := ⟨marker.resume, none, s.filter.nextSequence + 1⟩, fault := true } []
  | publish {marker best publication} : s.filter.pc = .writing marker →
      s.filter.bestCandidate = some best →
      publicationOf s.filter.nextSequence best.toGnssCandidate = some publication →
      Transition s .filterStep
        { s with
          filter := ⟨marker.resume, none, s.filter.nextSequence + 1⟩
          publicationQueue := .overwrite rfl publication }
        [.published best publication]
  | acknowledge : s.filter.pc = .acknowledging →
      Transition s .filterStep ({ s with overrideFlushDone := true }.goto .selecting) []
  | publicationReceive {publication publicationQueue} :
      s.publicationQueue.receive = some (publication, publicationQueue) →
      Transition s .publicationReceive { s with publicationQueue } []

/-! A receive touches only the queues and the filter task. -/

theorem GnssStack.receiveSelected_eq (s : GnssStack) (member : FilterMember) :
    ∃ queueSet pc, s.receiveSelected member = { s with queueSet }.goto pc := by
  unfold GnssStack.receiveSelected
  cases member <;> dsimp only <;> split <;> exact ⟨_, _, rfl⟩

@[simp] theorem GnssStack.receiveSelected_input (s : GnssStack) (member : FilterMember) :
    (s.receiveSelected member).input = s.input := by
  unfold GnssStack.receiveSelected
  cases member <;> dsimp only <;> split <;> rfl

@[simp] theorem GnssStack.receiveSelected_session (s : GnssStack) (member : FilterMember) :
    (s.receiveSelected member).session = s.session := by
  unfold GnssStack.receiveSelected
  cases member <;> dsimp only <;> split <;> rfl

@[simp] theorem GnssStack.receiveSelected_publicationQueue (s : GnssStack) (member : FilterMember) :
    (s.receiveSelected member).publicationQueue = s.publicationQueue := by
  unfold GnssStack.receiveSelected
  cases member <;> dsimp only <;> split <;> rfl

namespace Transition

variable {s s' : GnssStack} {action : GnssAction} {events : List GnssEvent}

theorem of_feedByte (h : s.feedByte = some (s', events)) : Transition s .feedByte s' events := by
  unfold GnssStack.feedByte at h
  split at h
  · rename_i source byte rest held
    dsimp only at h
    split at h
    · rename_i fault
      cases h
      exact .overrun held fault
    · rename_i parserState pair fed
      cases pair with
      | none =>
          cases h
          exact .scanned held fed
      | some pair =>
          unfold GnssStack.candidateSend at h
          dsimp only at h
          cases sent : s.queueSet.send .candidate { pair with source, session := s.session } with
          | none =>
              rw [sent] at h
              cases h
              exact .dropped held fed sent
          | some queueSet =>
              rw [sent] at h
              cases h
              exact .paired held fed sent
  · cases h
  · cases h

theorem of_filterStep (h : s.filterStep = some (s', events)) : Transition s .filterStep s' events := by
  unfold GnssStack.filterStep at h
  split at h
  · rename_i pc
    split at h
    · rename_i selected
      cases h
      exact .select pc selected
    · cases h
  · rename_i pc
    cases h
    exact .receive pc
  · rename_i pc
    split at h
    · cases h
    · rename_i free
      cases h
      exact .consider pc (by simpa using free)
  · rename_i pc
    split at h
    · cases h
    · rename_i free
      split at h
      · rename_i same
        cases h
        exact .flush pc (by simpa using free) same
      · rename_i other
        cases h
        exact .ignore pc (by simpa using free) other
  · rename_i marker pc
    split at h
    · cases h
    · rename_i free
      unfold GnssStack.publishBest at h
      cases best : dropStale s.input.inputEpoch s.filter.bestCandidate with
      | none =>
          rw [best] at h
          cases h
          exact .decideNone pc (by simpa using free) best
      | some best' =>
          rw [best] at h
          cases h
          exact .decide pc (by simpa using free) best
  · rename_i marker pc
    split at h
    · rename_i best held
      unfold GnssStack.writePublication at h
      cases copied : publicationOf s.filter.nextSequence best.toGnssCandidate with
      | none =>
          rw [copied] at h
          cases h
          exact .miscopied pc held copied
      | some publication =>
          rw [copied] at h
          cases h
          exact .publish pc held copied
    · cases h
  · rename_i pc
    cases h
    exact .acknowledge pc

theorem of_next (h : s.next action = some (s', events)) : Transition s action s' events := by
  cases action with
  | initReset =>
      simp only [GnssStack.next] at h
      split at h
      · cases h
      · rename_i free
        cases h
        simp only [Bool.or_eq_true, not_or] at free
        exact .initReset (by simpa using free.1)
  | uartFeed data =>
      simp only [GnssStack.next] at h
      split at h
      · cases h
      · rename_i free
        simp only [Bool.or_eq_true, not_or] at free
        split at h
        · cases h
          exact .refused
        · rename_i inactive
          cases h
          exact .uartFeed (by simpa using free.1) (by simpa using inactive)
  | overrideBegin =>
      simp only [GnssStack.next] at h
      split at h
      · cases h
      · rename_i free
        unfold GnssStack.overrideBegin gnssInputOverrideBegin at h
        cases active : s.input.overrideActive with
        | true =>
            rw [active] at h
            cases h
            exact .refused
        | false =>
            rw [active] at h
            cases h
            exact .overrideBegin (by simpa using free) active
  | overrideFeed data =>
      simp only [GnssStack.next] at h
      split at h
      · cases h
      · rename_i free
        split at h
        · cases h
          exact .refused
        · rename_i accepting
          cases h
          simp only [Bool.or_eq_true, Bool.not_eq_eq_eq_not, Bool.not_true, not_or] at accepting
          exact .overrideFeed (by simpa using free) (by simpa using accepting.1)
            (by simpa using accepting.2)
  | feedByte => exact of_feedByte h
  | feedReturn =>
      simp only [GnssStack.next] at h
      split at h
      · rename_i held
        cases h
        exact .feedReturn held
      · cases h
      · cases h
  | endEnter task =>
      simp only [GnssStack.next] at h
      split at h
      · cases h
      · rename_i free
        cases call : s.calls task with
        | idle =>
            rw [call] at h
            unfold GnssStack.endEnter gnssInputOverrideEndEnter at h
            cases accepting : s.input.overrideActive && !s.input.overrideClosing with
            | true =>
                rw [accepting] at h
                cases h
                simp only [Bool.and_eq_true, Bool.not_eq_eq_eq_not, Bool.not_true] at accepting
                exact .endEnter (by simpa using free) call accepting.1 accepting.2
            | false =>
                rw [accepting] at h
                cases h
                exact .refused
        | discarding | sending | waiting | closing =>
            rw [call] at h
            cases h
  | endDiscard task =>
      cases call : s.calls task with
      | discarding control =>
          simp only [GnssStack.next, call] at h
          cases h
          exact .endDiscard call
      | idle | sending | waiting | closing => simp [GnssStack.next, call] at h
  | endSend task =>
      cases call : s.calls task with
      | sending control =>
          simp only [GnssStack.next, call] at h
          split at h
          · rename_i queueSet sent
            cases h
            exact .endSend call sent
          · cases h
      | idle | discarding | waiting | closing => simp [GnssStack.next, call] at h
  | endTake task =>
      cases call : s.calls task with
      | waiting =>
          simp only [GnssStack.next, call] at h
          split at h
          · rename_i given
            cases h
            exact .endTake call given
          · cases h
      | idle | discarding | sending | closing => simp [GnssStack.next, call] at h
  | endClose task =>
      simp only [GnssStack.next] at h
      split at h
      · cases h
      · rename_i free
        cases call : s.calls task with
        | closing =>
            rw [call] at h
            cases h
            exact .endClose (by simpa using free) call
        | idle | discarding | sending | waiting =>
            rw [call] at h
            cases h
  | timerExpire =>
      simp only [GnssStack.next, GnssStack.selectionTimerCallback] at h
      cases h
      split
      · rename_i vacant
        exact .timerExpire vacant
      · rename_i occupied
        exact .timerCoalesced occupied
  | filterStep => exact of_filterStep h
  | publicationReceive =>
      simp only [GnssStack.next] at h
      split at h
      · rename_i received
        cases h
        exact .publicationReceive received
      · cases h

/-- What the byte of a feeding step does. -/
theorem fed_of_feedByte {byte : UInt8} (fits : s.input.parserState.Fits)
    {parserState : NmeaParserState} {pair : Option GnssCandidate}
    (h : nmeaParserFeedByte s.input.inputEpoch s.input.parserState byte = some (parserState, pair)) :
    Fed s.input.inputEpoch s.input.parserState byte parserState pair := by
  rw [nmeaParserFeedByte_spec _ fits] at h
  have fed := s.input.parserState.fed s.input.inputEpoch byte
  rw [Option.some.inj h] at fed
  exact fed

theorem fits (h : Transition s action s' events) (fits : s.input.parserState.Fits) :
    s'.input.parserState.Fits := by
  have feeds : ∀ {byte parserState pair},
      nmeaParserFeedByte s.input.inputEpoch s.input.parserState byte = some (parserState, pair) →
        parserState.Fits := by
    intro byte parserState pair fed
    rw [nmeaParserFeedByte_spec _ fits] at fed
    have after := fits.feed s.input.inputEpoch byte
    rw [Option.some.inj fed] at after
    exact after
  cases h with
  | initReset | overrideBegin | endClose => exact .reset
  | scanned _ fed | paired _ fed | dropped _ fed => exact feeds fed
  | receive =>
      rw [GnssStack.receiveSelected_input]
      exact fits
  | _ => exact fits

end Transition

/-- The parser stays inside its arrays throughout a run. -/
theorem fits_of_exec {history : List GnssEvent} {s : GnssStack} (run : gnssSystem.Exec history s) :
    s.input.parserState.Fits := by
  refine System.Exec.invariant (I := fun _ s => s.input.parserState.Fits)
    (fun s start => ?_) (fun _ _ _ _ _ _ fits step => ?_) run
  · cases start
    exact .reset
  · exact (Transition.of_next step).fits fits

end EspGnss.Gnss
