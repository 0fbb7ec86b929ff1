import EspGnss.Gnss.Resume

/-! # What a session hands to the filter task

The bytes of a session come from one source, and the pairs that the parser completes from
them, sent or dropped, are those that a cleared parser makes of these bytes alone. At most
one upload is cut in two, where `gnss_init_task` clears the parser in the middle of it.
-/

namespace EspGnss.Gnss

open Foundation Nmea

/-- The pairs of a session that the parser has completed. -/
def completedIn (session : Nat) (history : List GnssEvent) : List Candidate :=
  history.filterMap fun
    | .enqueued ⟨.candidate, c⟩ => if c.session = session then some c else none
    | .dropped c => if c.session = session then some c else none
    | _ => none

/-- What a cleared parser makes of the bytes of a session, when it is cleared again at `cut`. -/
def parsedFrom (session : Nat) (source : Source) (inputEpoch : UInt32) (cut : Nat) (history : List GnssEvent) :
    List Candidate :=
  let bytes := acceptedBytes session source history
  let pairs := (NmeaParserState.reset.feedAll inputEpoch (bytes.take cut)).2 ++
    (NmeaParserState.reset.feedAll inputEpoch (bytes.drop cut)).2
  pairs.map fun pair => { pair with source, session }

structure SessionParsed (session : Nat) (source : Source) (inputEpoch : UInt32) (cut : Nat) (history : List GnssEvent) :
    Prop where
  completed : completedIn session history = parsedFrom session source inputEpoch cut history
  alone : ∀ other, other ≠ source → acceptedBytes session other history = []
  within : cut ≤ (acceptedBytes session source history).length
  uploaded : source = .uart → cut = 0

/-- What a step says about bytes and completed pairs. -/
def GnssEvent.parses : GnssEvent → Bool
  | .accepted _ _ _ | .enqueued ⟨.candidate, _⟩ | .dropped _ => true
  | _ => false

variable {history events : List GnssEvent} {s s' : GnssStack} {action : GnssAction} {session : Nat} {source : Source}
  {inputEpoch : UInt32} {cut : Nat} {cuts : Nat → Nat}

theorem completedIn_append : completedIn session (history ++ events) =
    completedIn session history ++ completedIn session events := List.filterMap_append

theorem mem_completedIn {c : Candidate} : c ∈ completedIn session history ↔
    (.enqueued (.candidate c) ∈ history ∨ .dropped c ∈ history) ∧ c.session = session := by
  rw [completedIn, List.mem_filterMap]
  constructor
  · rintro ⟨event, member, completes⟩
    cases event with
    | enqueued entry =>
        obtain ⟨kind, item⟩ := entry
        cases kind with
        | candidate =>
            obtain ⟨same, rfl⟩ := Option.ite_some_none_eq_some.mp completes
            exact ⟨.inl member, same⟩
        | timer | control => cases completes
    | dropped other =>
        obtain ⟨same, rfl⟩ := Option.ite_some_none_eq_some.mp completes
        exact ⟨.inr member, same⟩
    | _ => cases completes
  · rintro ⟨sent | dropped, same⟩
    · exact ⟨_, sent, if_pos same⟩
    · exact ⟨_, dropped, if_pos same⟩

theorem mem_enqueued {entry : Entry} : entry ∈ enqueued history ↔ .enqueued entry ∈ history := by
  rw [enqueued, List.mem_filterMap]
  constructor
  · rintro ⟨event, member, same⟩
    cases event with
    | enqueued =>
        cases same
        exact member
    | _ => cases same
  · exact fun member => ⟨_, member, rfl⟩

theorem completedIn_quiet (quiet : ∀ event ∈ events, event.parses = false) : completedIn session events = [] := by
  apply List.filterMap_eq_nil_iff.mpr
  intro event member
  have other := quiet event member
  cases event with
  | enqueued entry =>
      obtain ⟨kind, item⟩ := entry
      cases kind with
      | candidate => cases other
      | timer | control => rfl
  | dropped => cases other
  | _ => rfl

theorem acceptedBytes_quiet (quiet : ∀ event ∈ events, event.parses = false) :
    acceptedBytes session source events = [] := by
  apply acceptedBytes_eq_nil
  intro byte member
  cases quiet _ member

theorem acceptedBytes_cons {session' : Nat} {source' : Source} {byte : UInt8}
    (rest : acceptedBytes session' source' events = []) :
    acceptedBytes session' source' (.accepted session source byte :: events) =
      if session = session' ∧ source = source' then [byte] else [] := by
  rw [acceptedBytes] at rest
  rw [acceptedBytes, List.filterMap_cons, rest]
  by_cases same : session = session' ∧ source = source' <;> simp [same]

theorem completedIn_cons {c : Candidate} {byte : UInt8} {event : GnssEvent}
    (completes : event = .enqueued (.candidate c) ∨ event = .dropped c) :
    completedIn session [.accepted c.session source byte, event] = if c.session = session then [c] else [] := by
  rcases completes with rfl | rfl <;>
    by_cases same : c.session = session <;> simp [completedIn, same]

theorem parsedFrom_zero : parsedFrom session source inputEpoch 0 history =
    (NmeaParserState.reset.feedAll inputEpoch (acceptedBytes session source history)).2.map fun pair =>
      { pair with source, session } := by
  simp [parsedFrom, NmeaParserState.feedAll]

theorem SessionParsed.quiet (parsed : SessionParsed session source inputEpoch cut history)
    (bytes : ∀ source, acceptedBytes session source events = []) (pairs : completedIn session events = []) :
    SessionParsed session source inputEpoch cut (history ++ events) := by
  have same (source) : acceptedBytes session source (history ++ events) = acceptedBytes session source history := by
    rw [acceptedBytes_append, bytes, List.append_nil]
  constructor
  · rw [completedIn_append, pairs, List.append_nil, parsedFrom, same]
    exact parsed.completed
  · intro other apart
    rw [same]
    exact parsed.alone other apart
  · rw [same]
    exact parsed.within
  · exact parsed.uploaded

/-- Nothing has happened in this session yet. -/
structure Unopened (session : Nat) (history : List GnssEvent) : Prop where
  bytes : ∀ source, acceptedBytes session source history = []
  pairs : completedIn session history = []

theorem Unopened.parsed (unopened : Unopened session history) :
    SessionParsed session source inputEpoch 0 history where
  completed := by
    rw [unopened.pairs, parsedFrom_zero, unopened.bytes]
    rfl
  alone other _ := unopened.bytes other
  within := Nat.zero_le _
  uploaded _ := rfl

theorem Unopened.append (unopened : Unopened session history)
    (bytes : ∀ source, acceptedBytes session source events = []) (pairs : completedIn session events = []) : Unopened session (history ++ events) where
  bytes source := by rw [acceptedBytes_append, unopened.bytes, bytes, List.append_nil]
  pairs := by rw [completedIn_append, unopened.pairs, pairs, List.append_nil]

/-- All sessions so far, and the one that the parser is in the middle of. -/
structure Parsed (cuts : Nat → Nat) (history : List GnssEvent) (s : GnssStack) : Prop where
  past : ∀ session < s.session, ∃ source inputEpoch, SessionParsed session source inputEpoch (cuts session) history
  current : SessionParsed s.session s.input.owner s.input.inputEpoch (cuts s.session) history
  future : ∀ session > s.session, Unopened session history ∧ cuts session = 0
  parser : s.input.parserState = (NmeaParserState.reset.feedAll s.input.inputEpoch
    ((acceptedBytes s.session s.input.owner history).drop (cuts s.session))).1

namespace Parsed

/-- A step that feeds nothing. -/
theorem same (h : Parsed cuts history s) (quiet : ∀ event ∈ events, event.parses = false)
    (session : s'.session = s.session) (active : s'.input.overrideActive = s.input.overrideActive)
    (epoch : s'.input.inputEpoch = s.input.inputEpoch) (parser : s'.input.parserState = s.input.parserState) :
    Parsed cuts (history ++ events) s' := by
  have owner : s'.input.owner = s.input.owner := by rw [GnssInput.owner, active, GnssInput.owner]
  have bytes (session source) : acceptedBytes session source events = [] := acceptedBytes_quiet quiet
  have pairs (session) : completedIn session events = [] := completedIn_quiet quiet
  constructor
  · intro earlier before
    rw [session] at before
    obtain ⟨source, inputEpoch, parsed⟩ := h.past earlier before
    exact ⟨source, inputEpoch, parsed.quiet (bytes earlier) (pairs earlier)⟩
  · rw [session, owner, epoch]
    exact h.current.quiet (bytes _) (pairs _)
  · intro later after
    rw [session] at after
    obtain ⟨unopened, uncut⟩ := h.future later after
    exact ⟨unopened.append (bytes later) (pairs later), uncut⟩
  · rw [session, owner, epoch, parser, acceptedBytes_append, bytes, List.append_nil]
    exact h.parser

/-- A new session starts with a cleared parser. -/
theorem renew (h : Parsed cuts history s) (quiet : ∀ event ∈ events, event.parses = false)
    (session : s'.session = s.session + 1) (parser : s'.input.parserState = .reset) :
    Parsed cuts (history ++ events) s' := by
  have bytes (session source) : acceptedBytes session source events = [] := acceptedBytes_quiet quiet
  have pairs (session) : completedIn session events = [] := completedIn_quiet quiet
  obtain ⟨unopened, uncut⟩ := h.future s'.session (by omega)
  have fresh : Unopened s'.session (history ++ events) := unopened.append (bytes _) (pairs _)
  constructor
  · intro earlier before
    rcases Nat.lt_or_eq_of_le (Nat.le_of_lt_succ (session ▸ before)) with past | rfl
    · obtain ⟨source, inputEpoch, parsed⟩ := h.past earlier past
      exact ⟨source, inputEpoch, parsed.quiet (bytes earlier) (pairs earlier)⟩
    · exact ⟨_, _, h.current.quiet (bytes _) (pairs _)⟩
  · rw [uncut]
    exact fresh.parsed
  · intro later after
    obtain ⟨unopened, uncut⟩ := h.future later (by omega)
    exact ⟨unopened.append (bytes later) (pairs later), uncut⟩
  · rw [fresh.bytes, parser, List.drop_nil]
    rfl

/-- `gnss_init_task` clears the parser: what it fed up to now is behind the cut. -/
theorem clear (h : Parsed cuts history s) (uncut : cuts s.session = 0)
    (unfed : s.input.owner = .uart → acceptedBytes s.session s.input.owner history = [])
    (input : s'.input = { s.input with parserState := .reset }) (session : s'.session = s.session) :
    Parsed (Function.update cuts s.session (acceptedBytes s.session s.input.owner history).length) history s' := by
  have owner : s'.input.owner = s.input.owner := by rw [input]; rfl
  have epoch : s'.input.inputEpoch = s.input.inputEpoch := by rw [input]
  have current := h.current
  rw [uncut] at current
  constructor
  · intro earlier before
    rw [session] at before
    rw [Function.update_of_ne (Nat.ne_of_lt before)]
    exact h.past earlier before
  · rw [session, owner, epoch, Function.update_self]
    constructor
    · rw [current.completed, parsedFrom_zero, parsedFrom, List.take_length, List.drop_length]
      simp [NmeaParserState.feedAll]
    · exact current.alone
    · exact Nat.le_refl _
    · intro uart
      rw [unfed uart]
      rfl
  · intro later after
    rw [session] at after
    rw [Function.update_of_ne (Nat.ne_of_gt after)]
    exact h.future later after
  · rw [session, owner, epoch, Function.update_self, List.drop_length, input]
    rfl

/-- A byte that is fed, and the pair it completes, if any. -/
theorem feeds (h : Parsed cuts history s) (handshake : Handshake (exchange history s)) (fits : s.input.parserState.Fits)
    {byte : UInt8} {rest : List UInt8} {parserState : NmeaParserState} {pair : Option GnssCandidate}
    (held : s.mutex = some ⟨source, byte :: rest⟩)
    (fed : nmeaParserFeedByte s.input.inputEpoch s.input.parserState byte = some (parserState, pair))
    (bytes : ∀ session' source', acceptedBytes session' source' events =
      if s.session = session' ∧ source = source' then [byte] else [])
    (pairs : ∀ session', completedIn session' events =
      if s.session = session' then pair.toList.map (fun pair => { pair with source, session := s.session }) else [])
    (input : s'.input = { s.input with parserState }) (session : s'.session = s.session) :
    Parsed cuts (history ++ events) s' := by
  obtain rfl : source = s.input.owner := owner_of_feeding handshake held
  have owner : s'.input.owner = s.input.owner := by rw [input]; rfl
  have epoch : s'.input.inputEpoch = s.input.inputEpoch := by rw [input]
  have more : acceptedBytes s.session s.input.owner (history ++ events) =
      acceptedBytes s.session s.input.owner history ++ [byte] := by
    rw [acceptedBytes_append, bytes, if_pos ⟨rfl, rfl⟩]
  have rest : (acceptedBytes s.session s.input.owner (history ++ events)).drop (cuts s.session) =
      (acceptedBytes s.session s.input.owner history).drop (cuts s.session) ++ [byte] := by
    rw [more, List.drop_append_of_le_length h.current.within]
  have whole : NmeaParserState.reset.feedAll s.input.inputEpoch
      ((acceptedBytes s.session s.input.owner (history ++ events)).drop (cuts s.session)) =
        (parserState, (NmeaParserState.reset.feedAll s.input.inputEpoch
          ((acceptedBytes s.session s.input.owner history).drop (cuts s.session))).2 ++ pair.toList) := by
    have byteFed : s.input.parserState.feedAll s.input.inputEpoch [byte] = (parserState, pair.toList) := by
      have stepped := Option.some.inj ((nmeaParserFeedByte_spec _ fits byte).symm.trans fed)
      simp [NmeaParserState.feedAll, stepped]
    rw [rest, NmeaParserState.feedAll_append, ← h.parser, byteFed]
  have elsewhere (other : Nat) (apart : other ≠ s.session) :
      (∀ source, acceptedBytes other source events = []) ∧ completedIn other events = [] := by
    constructor
    · intro source
      rw [bytes, if_neg fun same => apart same.1.symm]
    · rw [pairs, if_neg (Ne.symm apart)]
  constructor
  · intro earlier before
    rw [session] at before
    obtain ⟨source, inputEpoch, parsed⟩ := h.past earlier before
    obtain ⟨noBytes, noPairs⟩ := elsewhere earlier (Nat.ne_of_lt before)
    exact ⟨source, inputEpoch, parsed.quiet noBytes noPairs⟩
  · rw [session, owner, epoch]
    constructor
    · rw [completedIn_append, h.current.completed, pairs, if_pos rfl, parsedFrom, parsedFrom, whole, more,
        List.take_append_of_le_length h.current.within, ← List.map_append, List.append_assoc]
    · intro other apart
      rw [acceptedBytes_append, h.current.alone other apart, bytes, if_neg fun same => apart same.2.symm]
      rfl
    · rw [more, List.length_append]
      exact Nat.le_add_right_of_le h.current.within
    · exact h.current.uploaded
  · intro later after
    rw [session] at after
    obtain ⟨noBytes, noPairs⟩ := elsewhere later (Nat.ne_of_gt after)
    obtain ⟨unopened, uncut⟩ := h.future later after
    exact ⟨unopened.append noBytes noPairs, uncut⟩
  · rw [session, owner, epoch, whole, input]

theorem step (h : Parsed cuts history s) (run : gnssSystem.Exec history s) (next : s.next action = some (s', events))
    (running : action ≠ .initReset) : Parsed cuts (history ++ events) s' := by
  have handshake := handshake_of_exec run
  have fits := fits_of_exec run
  cases Transition.of_next next with
  | refused =>
      rwa [List.append_nil]
  | initReset => exact absurd rfl running
  | overrun held fault =>
      rw [nmeaParserFeedByte_spec _ fits] at fault
      cases fault
  | scanned held fed =>
      refine h.feeds handshake fits held fed ?_ ?_ rfl rfl
      · intro session source
        exact acceptedBytes_cons rfl
      · intro session
        exact (ite_self _).symm
  | dropped held fed =>
      refine h.feeds handshake fits held fed ?_ ?_ rfl rfl
      · intro session source
        exact acceptedBytes_cons rfl
      · intro session
        exact completedIn_cons (.inr rfl)
  | paired held fed =>
      refine h.feeds handshake fits held fed ?_ ?_ rfl rfl
      · intro session source
        exact acceptedBytes_cons rfl
      · intro session
        exact completedIn_cons (.inl rfl)
  | overrideBegin => exact h.renew (by simp [GnssEvent.parses]) rfl rfl
  | endClose => exact h.renew (by simp [GnssEvent.parses]) rfl rfl
  | @receive member =>
      obtain ⟨queueSet, pc, same⟩ := s.receiveSelected_eq member
      rw [same]
      exact h.same (by simp) rfl rfl rfl rfl
  | _ => exact h.same (by simp [GnssEvent.parses]) rfl rfl rfl rfl

/-- `gnss_init_task` clears the parser before UART2 has fed anything. -/
theorem initReset (h : Parsed cuts history s) (run : gnssSystem.Exec history s) (uncut : s.uartReady = false → cuts s.session = 0)
    (next : s.next .initReset = some (s', events)) : s.uartReady = false ∧ s'.uartReady = true ∧
      Parsed (Function.update cuts s.session (acceptedBytes s.session s.input.owner history).length)
        (history ++ events) s' := by
  have unready : s.uartReady = false := by
    by_contra ready
    simp [GnssStack.next, ready] at next
  have unfed (uart : s.input.owner = .uart) : acceptedBytes s.session s.input.owner history = [] := by
    rw [uart]
    exact acceptedBytes_eq_nil ((resumed_of_exec run).unfed unready s.session)
  simp only [GnssStack.next, unready, Bool.or_false] at next
  split at next
  · cases next
  · cases next
    rw [List.append_nil]
    exact ⟨unready, rfl, h.clear (uncut unready) unfed rfl rfl⟩

end Parsed

theorem uartReady_of_next (next : s.next action = some (s', events)) (running : action ≠ .initReset) :
    s'.uartReady = s.uartReady := by
  cases Transition.of_next next with
  | initReset => exact absurd rfl running
  | @receive member =>
      obtain ⟨queueSet, pc, same⟩ := s.receiveSelected_eq member
      rw [same]
      rfl
  | _ => rfl

theorem parsed_initial {s : GnssStack} (start : gnssSystem.init s) : Parsed (fun _ => 0) [] s := by
  cases start
  have unopened (session) : Unopened session [] := ⟨fun _ => rfl, rfl⟩
  exact ⟨nofun, (unopened _).parsed, fun _ _ => ⟨unopened _, rfl⟩, rfl⟩

/-- Only one session is cut, and none before `gnss_init_task` has cleared the parser. -/
structure CutOnce (cuts : Nat → Nat) (s : GnssStack) : Prop where
  once : ∃ restarted, ∀ session, session ≠ restarted → cuts session = 0
  ready : s.uartReady = false → ∀ session, cuts session = 0

theorem parsed_of_exec (run : gnssSystem.Exec history s) : ∃ cuts, Parsed cuts history s ∧ CutOnce cuts s := by
  refine System.Exec.invariant (I := fun history s => ∃ cuts, Parsed cuts history s ∧ CutOnce cuts s) ?_ ?_ run
  · intro s start
    exact ⟨_, parsed_initial start, ⟨0, fun _ _ => rfl⟩, fun _ _ => rfl⟩
  · intro history s action s' events earlier ⟨cuts, parsed, cutOnce⟩ next
    by_cases reset : action = .initReset
    · subst reset
      obtain ⟨unready, ready, cleared⟩ := parsed.initReset earlier (fun unready => cutOnce.ready unready _) next
      refine ⟨_, cleared, ⟨s.session, ?_⟩, ?_⟩
      · intro session other
        rw [Function.update_of_ne other]
        exact cutOnce.ready unready session
      · intro unready
        rw [ready] at unready
        cases unready
    · refine ⟨cuts, parsed.step earlier next reset, cutOnce.once, ?_⟩
      rw [uartReady_of_next next reset]
      exact cutOnce.ready

/-- `gnss_init_task` does not clear the parser during an override. -/
def ClearsForUart (s : GnssStack) (action : GnssAction) : Prop := action = .initReset → s.input.overrideActive = false

instance (s : GnssStack) (action : GnssAction) : Decidable (ClearsForUart s action) :=
  inferInstanceAs (Decidable (_ → _))

theorem parsed_uncut (run : (gnssSystem.guarded ClearsForUart).Exec history s) : Parsed (fun _ => 0) history s := by
  have starts (s) (start : (gnssSystem.guarded ClearsForUart).init s) : Parsed (fun _ => 0) [] s := parsed_initial start
  apply System.Exec.invariant starts _ run
  intro history s action s' events earlier parsed ⟨cleared, next⟩
  by_cases reset : action = .initReset
  · subst reset
    obtain ⟨unready, -, after⟩ := parsed.initReset earlier.of_guarded (fun _ => rfl) next
    have owner : s.input.owner = .uart := by
      rw [GnssInput.owner, cleared rfl]
      rfl
    have nothing : acceptedBytes s.session s.input.owner history = [] := by
      rw [owner]
      exact acceptedBytes_eq_nil ((resumed_of_exec earlier.of_guarded).unfed unready s.session)
    have uncut : Function.update (fun _ => 0) s.session 0 = fun _ => 0 := Function.update_eq_self _ _
    rw [nothing] at after
    exact uncut ▸ after
  · exact parsed.step earlier.of_guarded next reset

/-- Every session has one source, and completes the pairs that a cleared parser makes of its bytes. -/
theorem sessions_parsed (run : gnssSystem.Exec history s) :
    ∃ cuts : Nat → Nat, (∃ restarted, ∀ session, session ≠ restarted → cuts session = 0) ∧
      ∀ session ≤ s.session, ∃ source inputEpoch, SessionParsed session source inputEpoch (cuts session) history := by
  obtain ⟨cuts, parsed, cutOnce⟩ := parsed_of_exec run
  refine ⟨cuts, cutOnce.once, fun session begun => ?_⟩
  rcases Nat.lt_or_eq_of_le begun with past | rfl
  · exact parsed.past session past
  · exact ⟨_, _, parsed.current⟩

def sessionRun : Option (GnssStack × List GnssEvent) :=
  System.replay GnssStack.next .initial uploadSchedule

theorem sessionRun_isSome : sessionRun.isSome = true := by decide +kernel

theorem sessionRun_parsed : completedIn 1 (sessionRun.get sessionRun_isSome).2 ≠ [] ∧
    ∃ cuts : Nat → Nat, (∃ restarted, ∀ session, session ≠ restarted → cuts session = 0) ∧
      ∀ session ≤ (sessionRun.get sessionRun_isSome).1.session, ∃ source inputEpoch,
        SessionParsed session source inputEpoch (cuts session) (sessionRun.get sessionRun_isSome).2 :=
  ⟨by decide +kernel, sessions_parsed (System.Exec.of_replay_isSome sessionRun_isSome)⟩

end EspGnss.Gnss
