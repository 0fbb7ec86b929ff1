import EspGnss.Gnss.Epoch
import EspGnss.Gnss.Reference

/-! # Where published bytes come from

A published pair is two complete valid lines, each a contiguous part of the
bytes that one source fed during one session, the GGA line first. The parser,
the queue, the filter task and the publication pass them on unchanged and no
copy leaves its array.
-/

namespace EspGnss.Gnss

open Foundation Nmea

/-- A complete line: `$`, no `$` or LF inside, LF at the end, at most 128 bytes,
    and a valid checksum. -/
def IsLine (line : List UInt8) : Prop := lineFraming.IsFrame line ∧ ChecksumValid line

/-- The bytes that a source fed during a session. -/
def acceptedBytes (session : Nat) (source : Source) (history : List GnssEvent) : List UInt8 :=
  history.filterMap fun
    | .accepted session' source' byte => if session' = session ∧ source' = source then some byte else none
    | _ => none

theorem acceptedBytes_append (session : Nat) (source : Source) (history events : List GnssEvent) :
    acceptedBytes session source (history ++ events) =
      acceptedBytes session source history ++ acceptedBytes session source events :=
  List.filterMap_append

/-- A GGA line and a later RMC line are separate parts of a stream. -/
structure PairIn (stream gga rmc : List UInt8) : Prop where
  isGga : IsLine gga ∧ lineType gga = ggaType
  isRmc : IsLine rmc ∧ lineType rmc = rmcType
  parts : ∃ before between after, stream = before ++ gga ++ between ++ rmc ++ after

theorem PairIn.extend {stream gga rmc : List UInt8} (h : PairIn stream gga rmc) (more : List UInt8) :
    PairIn (stream ++ more) gga rmc := by
  obtain ⟨before, between, after, split⟩ := h.parts
  refine ⟨h.isGga, h.isRmc, before, between, after ++ more, ?_⟩
  rw [split, List.append_assoc]

/-- What the parser holds are parts of the stream, the pending GGA line before
    the line in assembly. -/
structure Assembled (stream : List UInt8) (state : NmeaParserState) : Prop where
  line : state.inSentence = true →
    lineFraming.IsOpen state.sentence ∧ ∃ before, stream = before ++ state.sentence
  pending : state.hasPendingGga = true →
    (IsLine state.pendingGga ∧ lineType state.pendingGga = ggaType) ∧
      ∃ before after, stream = before ++ state.pendingGga ++ after ∧
        (state.inSentence = true → ∃ between, after = between ++ state.sentence)

theorem assembled_reset (stream : List UInt8) : Assembled stream .reset := ⟨nofun, nofun⟩

theorem lineType_of_gga {line : List UInt8} {value : Int} (kind : lineKind line = .gga value) :
    ChecksumValid line ∧ lineType line = ggaType := by
  unfold lineKind at kind
  split at kind
  · rename_i valid
    split at kind
    · rename_i parsed
      exact ⟨valid, ((hdopMilli_isSome_iff valid).mp (by rw [parsed]; rfl)).1⟩
    · split at kind <;> cases kind
  · cases kind

theorem lineType_of_rmc {line : List UInt8} (kind : lineKind line = .rmc) :
    ChecksumValid line ∧ lineType line = rmcType := by
  unfold lineKind at kind
  split at kind
  · rename_i valid
    split at kind
    · cases kind
    · split at kind
      · rename_i rmc
        exact ⟨valid, rmc⟩
      · cases kind
  · cases kind

/-- An open line that ends is a frame. -/
theorem isFrame_of_ends {line : List UInt8} {byte : UInt8} (h : lineFraming.IsOpen line)
    (ends : byte = lineFeed) (room : line.length < gnssNmeaMaxSentenceLen) :
    lineFraming.IsFrame (line ++ [byte]) :=
  (lineFraming.isFrame_snoc line byte).mpr ⟨h, ends, room⟩

theorem Assembled.fed {inputEpoch : UInt32} {stream : List UInt8} {state after : NmeaParserState}
    {byte : UInt8} {pair : Option GnssCandidate} (h : Assembled stream state)
    (fed : Fed inputEpoch state byte after pair) :
    Assembled (stream ++ [byte]) after ∧
      ∀ candidate, pair = some candidate → PairIn (stream ++ [byte]) candidate.gga candidate.rmc := by
  -- Without an open line the pending GGA line only moves further back.
  have idle : state.hasPendingGga = true →
      (IsLine state.pendingGga ∧ lineType state.pendingGga = ggaType) ∧
        ∃ before after, stream ++ [byte] = before ++ state.pendingGga ++ after ∧
          (false = true → ∃ between, after = between ++ ([] : List UInt8)) := by
    intro held
    obtain ⟨gga, before, rest, split, -⟩ := h.pending held
    refine ⟨gga, before, rest ++ [byte], ?_, nofun⟩
    rw [split, List.append_assoc]
  cases fed with
  | start starts =>
      subst starts
      refine ⟨⟨fun _ => ⟨?_, stream, rfl⟩, fun held => ?_⟩, nofun⟩
      · exact (lineFraming.isOpen_snoc [] dollar).mpr (.inl ⟨rfl, rfl⟩)
      · obtain ⟨gga, before, rest, split, -⟩ := h.pending held
        refine ⟨gga, before, rest ++ [dollar], ?_, fun _ => ⟨rest, rfl⟩⟩
        rw [split, List.append_assoc]
  | skip outside =>
      refine ⟨⟨fun inside => ?_, fun held => ?_⟩, nofun⟩
      · rw [outside] at inside
        cases inside
      · obtain ⟨gga, before, rest, split, -⟩ := idle held
        refine ⟨gga, before, rest, split, fun inside => ?_⟩
        rw [outside] at inside
        cases inside
  | overlong => exact ⟨⟨nofun, idle⟩, nofun⟩
  | other => exact ⟨⟨nofun, idle⟩, nofun⟩
  | store notStart notEnd inside room =>
      obtain ⟨isOpen, before, split⟩ := h.line inside
      refine ⟨⟨fun _ => ⟨?_, before, ?_⟩, fun held => ?_⟩, nofun⟩
      · exact (lineFraming.isOpen_snoc _ byte).mpr (.inr ⟨isOpen, notStart, notEnd, room⟩)
      · rw [split, List.append_assoc]
      · obtain ⟨gga, first, rest, split, later⟩ := h.pending held
        obtain ⟨between, tail⟩ := later inside
        refine ⟨gga, first, rest ++ [byte], ?_, fun _ => ⟨between, ?_⟩⟩
        · rw [split, List.append_assoc]
        · rw [tail, List.append_assoc]
  | gga ends inside room kind =>
      obtain ⟨isOpen, before, split⟩ := h.line inside
      obtain ⟨valid, type⟩ := lineType_of_gga kind
      refine ⟨⟨nofun, fun _ => ⟨⟨⟨isFrame_of_ends isOpen ends room, valid⟩, type⟩, before, [], ?_, nofun⟩⟩,
        nofun⟩
      rw [split, List.append_nil, List.append_assoc]
  | rmc ends inside room kind held =>
      obtain ⟨isOpen, -⟩ := h.line inside
      obtain ⟨valid, type⟩ := lineType_of_rmc kind
      obtain ⟨gga, before, rest, split, later⟩ := h.pending held
      obtain ⟨between, tail⟩ := later inside
      refine ⟨⟨nofun, nofun⟩, fun candidate same => ?_⟩
      cases same
      refine ⟨gga, ⟨⟨isFrame_of_ends isOpen ends room, valid⟩, type⟩, before, between, [], ?_⟩
      rw [split, tail]
      simp only [List.append_assoc, List.append_nil]

/-- A candidate is a pair of lines of its session and source. -/
def Genuine (history : List GnssEvent) (c : Candidate) : Prop :=
  PairIn (acceptedBytes c.session c.source history) c.gga c.rmc

theorem Genuine.extend {history : List GnssEvent} {c : Candidate} (h : Genuine history c)
    (events : List GnssEvent) : Genuine (history ++ events) c := by
  rw [Genuine, acceptedBytes_append]
  exact PairIn.extend h _

structure Integrity (history : List GnssEvent) (s : GnssStack) : Prop where
  /-- No byte is of a session to come. -/
  past : ∀ session source byte, .accepted session source byte ∈ history → session ≤ s.session
  parser : Assembled (acceptedBytes s.session s.input.owner history) s.input.parserState
  genuine : ∀ c ∈ candidatesOf (enqueued history), Genuine history c
  best : ∀ c, s.filter.bestCandidate = some c → c ∈ candidatesOf (enqueued history)
  fault : s.fault = false

theorem acceptedBytes_eq_nil {history : List GnssEvent} {session : Nat} {source : Source}
    (h : ∀ byte, .accepted session source byte ∉ history) : acceptedBytes session source history = [] := by
  apply List.filterMap_eq_nil_iff.mpr
  intro event mem
  cases event with
  | accepted session' source' byte =>
      apply if_neg
      intro same
      rw [same.1, same.2] at mem
      exact h byte mem
  | _ => rfl

theorem owner_of_feeding {history : List GnssEvent} {s : GnssStack} (h : Handshake (exchange history s))
    {feed : Feed} (held : s.mutex = some feed) : feed.source = s.input.owner := by
  obtain ⟨-, feeds, -⟩ := h.quiet_of_open (h.open_of_feeding held)
  exact GnssInput.eq_owner (feeds feed held)

namespace Integrity

variable {history events : List GnssEvent} {s s' : GnssStack} {action : GnssAction}

/-- A step that feeds nothing and sends no candidate. -/
theorem same (h : Integrity history s) (unfed : ∀ session source byte, .accepted session source byte ∉ events)
    (unsent : candidatesOf (enqueued events) = []) (session : s'.session = s.session)
    (owner : s'.input.overrideActive = s.input.overrideActive)
    (parser : s'.input.parserState = s.input.parserState ∨ s'.input.parserState = .reset)
    (best : ∀ c, s'.filter.bestCandidate = some c → c ∈ candidatesOf (enqueued history))
    (fault : s'.fault = s.fault) : Integrity (history ++ events) s' := by
  have sent : candidatesOf (enqueued (history ++ events)) = candidatesOf (enqueued history) := by
    rw [enqueued_append, candidatesOf_append, unsent, List.append_nil]
  have stream : acceptedBytes s'.session s'.input.owner (history ++ events) =
      acceptedBytes s.session s.input.owner history := by
    rw [acceptedBytes_append, acceptedBytes_eq_nil (unfed _ _), List.append_nil, session,
      GnssInput.owner, owner]
    rfl
  refine ⟨fun se so byte mem => ?_, ?_, fun c mem => ?_, fun c held => ?_, fault.trans h.fault⟩
  · rw [session]
    exact h.past se so byte ((List.mem_append.mp mem).resolve_right (unfed se so byte))
  · rw [stream]
    cases parser with
    | inl kept =>
        rw [kept]
        exact h.parser
    | inr cleared =>
        rw [cleared]
        exact assembled_reset _
  · rw [sent] at mem
    exact (h.genuine c mem).extend events
  · rw [sent]
    exact best c held

/-- A new session starts with an empty parser and an empty stream. -/
theorem renew (h : Integrity history s) (unfed : ∀ session source byte, .accepted session source byte ∉ events)
    (unsent : enqueued events = []) (session : s'.session = s.session + 1)
    (parser : s'.input.parserState = .reset) (filter : s'.filter = s.filter)
    (fault : s'.fault = s.fault) : Integrity (history ++ events) s' := by
  have sent : candidatesOf (enqueued (history ++ events)) = candidatesOf (enqueued history) := by
    rw [enqueued_append, unsent, List.append_nil]
  refine ⟨fun se so byte mem => ?_, ?_, fun c mem => ?_, fun c held => ?_, fault.trans h.fault⟩
  · rw [session]
    exact Nat.le_succ_of_le (h.past se so byte ((List.mem_append.mp mem).resolve_right (unfed se so byte)))
  · rw [parser]
    exact assembled_reset _
  · rw [sent] at mem
    exact (h.genuine c mem).extend events
  · rw [sent]
    rw [filter] at held
    exact h.best c held

/-- A byte that is fed, and the pair it completes, if any. -/
theorem feeds (h : Integrity history s) (handshake : Handshake (exchange history s)) {source : Source}
    {byte : UInt8} {rest : List UInt8} {parserState : NmeaParserState} {pair : Option GnssCandidate}
    (held : s.mutex = some ⟨source, byte :: rest⟩)
    (fed : Fed s.input.inputEpoch s.input.parserState byte parserState pair)
    (stream : ∀ session source', acceptedBytes session source' events =
      acceptedBytes session source' [.accepted s.session source byte])
    (past : ∀ session source' byte', .accepted session source' byte' ∈ events → session = s.session)
    (sent : ∀ c ∈ candidatesOf (enqueued events), c.source = source ∧ c.session = s.session ∧
      pair = some c.toGnssCandidate)
    (input : s'.input = { s.input with parserState }) (session : s'.session = s.session)
    (filter : s'.filter = s.filter) (fault : s'.fault = s.fault) : Integrity (history ++ events) s' := by
  have owner : source = s.input.owner := owner_of_feeding handshake held
  have extended : acceptedBytes s.session s.input.owner (history ++ events) =
      acceptedBytes s.session s.input.owner history ++ [byte] := by
    rw [acceptedBytes_append, stream, ← owner]
    simp [acceptedBytes]
  obtain ⟨assembled, genuine⟩ := h.parser.fed fed
  rw [← extended] at assembled genuine
  refine ⟨fun se so b mem => ?_, ?_, fun c mem => ?_, fun c best => ?_, fault.trans h.fault⟩
  · rw [session]
    rcases List.mem_append.mp mem with old | new
    · exact h.past se so b old
    · exact Nat.le_of_eq (past se so b new)
  · rw [session, input]
    exact assembled
  · rw [enqueued_append, candidatesOf_append, List.mem_append] at mem
    rcases mem with old | new
    · exact (h.genuine c old).extend events
    · obtain ⟨fed, during, same⟩ := sent c new
      rw [Genuine, fed, during, owner]
      exact genuine _ same
  · rw [filter] at best
    rw [enqueued_append, candidatesOf_append]
    exact List.mem_append_left _ (h.best c best)

/-- The lines of the best candidate fit its arrays. -/
theorem best_fits (h : Integrity history s) {c : Candidate} (held : s.filter.bestCandidate = some c) :
    c.gga.length ≤ gnssNmeaMaxSentenceLen ∧ c.rmc.length ≤ gnssNmeaMaxSentenceLen := by
  have genuine := h.genuine c (h.best c held)
  obtain ⟨_, _, _, _, gga⟩ := genuine.isGga.1.1
  obtain ⟨_, _, _, _, rmc⟩ := genuine.isRmc.1.1
  exact ⟨gga, rmc⟩

theorem publicationOf_best (h : Integrity history s) {c : Candidate}
    (held : s.filter.bestCandidate = some c) :
    publicationOf s.filter.nextSequence c.toGnssCandidate = some {
      sequence := s.filter.nextSequence
      len := UInt16.ofNat (c.gga.length + c.rmc.length)
      hdopMilli := c.hdopMilli
      data := c.gga ++ c.rmc } :=
  publicationOf_spec _ (h.best_fits held).1 (h.best_fits held).2

theorem step (h : Integrity history s) (run : gnssSystem.Exec history s)
    (step : Transition s action s' events) : Integrity (history ++ events) s' := by
  have handshake := handshake_of_exec run
  have fits := fits_of_exec run
  have order := ordered_of_exec run
  cases step with
  | refused | uartFeed | overrideFeed | feedReturn | endEnter | endDiscard | endSend | endTake
  | timerExpire | timerCoalesced | select | flush | ignore | acknowledge | publicationReceive =>
      exact h.same (by simp) rfl rfl rfl (.inl rfl) h.best rfl
  | initReset => exact h.same (by simp) rfl rfl rfl (.inr rfl) h.best rfl
  | receive pc =>
      obtain ⟨pending, -, represents⟩ := order
      rw [pc] at represents
      obtain ⟨entry, rest, queueSet, -, received, -⟩ := receiveSelected_spec represents
      rw [received]
      exact h.same (by simp) rfl rfl rfl (.inl rfl) h.best rfl
  | overrun held fault =>
      rw [nmeaParserFeedByte_spec _ fits] at fault
      cases fault
  | scanned held fed =>
      exact h.feeds handshake held (Transition.fed_of_feedByte fits fed) (fun _ _ => rfl)
        (by simp +contextual) nofun rfl rfl rfl rfl
  | dropped held fed =>
      exact h.feeds handshake held (Transition.fed_of_feedByte fits fed) (fun _ _ => rfl)
        (by simp +contextual) nofun rfl rfl rfl rfl
  | paired held fed =>
      refine h.feeds handshake held (Transition.fed_of_feedByte fits fed) (fun _ _ => rfl)
        (by simp +contextual) (fun c mem => ?_) rfl rfl rfl rfl
      cases List.mem_singleton.mp mem
      exact ⟨rfl, rfl, rfl⟩
  | overrideBegin => exact h.renew (by simp) rfl rfl rfl rfl rfl
  | endClose => exact h.renew (by simp) rfl rfl rfl rfl rfl
  | @consider candidate pc =>
      refine h.same (by simp) rfl rfl rfl (.inl rfl) (fun c held => ?_) rfl
      rcases considerCandidate_eq_some held with new | old
      · obtain ⟨pending, flight, -⟩ := order.inFlight
        rw [new, ← order.processed_append_inFlight, flight, pc]
        exact mem_candidatesOf.mpr (List.mem_append_right _ List.mem_cons_self)
      · exact h.best c old
  | decideNone => exact h.same (by simp) rfl rfl rfl (.inl rfl) nofun rfl
  | decide pc _ fresh =>
      refine h.same (by simp) rfl rfl rfl (.inl rfl) (fun c held => ?_) rfl
      cases held
      exact h.best _ (dropStale_eq_some fresh).1
  | miscopied pc held fault =>
      rw [h.publicationOf_best held] at fault
      cases fault
  | publish => exact h.same (by simp) rfl rfl rfl (.inl rfl) nofun rfl

end Integrity

theorem integrity_of_exec {history : List GnssEvent} {s : GnssStack} (run : gnssSystem.Exec history s) :
    Integrity history s := by
  refine System.Exec.invariant (I := Integrity) (fun s start => ?_)
    (fun history s action s' events earlier h step => ?_) run
  · cases start
    exact ⟨nofun, assembled_reset _, nofun, nofun, rfl⟩
  · exact h.step earlier (.of_next step)

/-- A publication holds the GGA line and then the RMC line of a candidate, both
    parts of what its source fed during its session. -/
structure GenuinePublication (history : List GnssEvent) (publication : GnssPublication)
    (c : Candidate) : Prop where
  data : publication.data = c.gga ++ c.rmc
  hdopMilli : publication.hdopMilli = c.hdopMilli
  len : publication.len.toNat = publication.data.length
  fits : publication.data.length ≤ gnssPublicationMaxLen
  genuine : Genuine history c

theorem Integrity.genuinePublication {history : List GnssEvent} {s : GnssStack}
    (h : Integrity history s) {c : Candidate} (held : s.filter.bestCandidate = some c)
    {publication : GnssPublication}
    (copied : publicationOf s.filter.nextSequence c.toGnssCandidate = some publication) :
    GenuinePublication history publication c := by
  obtain ⟨gga, rmc⟩ := h.best_fits held
  rw [h.publicationOf_best held] at copied
  cases copied
  have bound : gnssNmeaMaxSentenceLen = 128 := rfl
  refine ⟨rfl, rfl, ?_, ?_, h.genuine c (h.best c held)⟩
  · rw [List.length_append]
    exact UInt16.toNat_ofNat_of_lt' (by omega : c.gga.length + c.rmc.length < 2 ^ 16)
  · rw [List.length_append, gnssPublicationMaxLen]
    omega

/-- What is in the publication queue has been written there. -/
theorem written_of_exec {history : List GnssEvent} {s : GnssStack} (run : gnssSystem.Exec history s) :
    ∀ publication ∈ s.publicationQueue.items, ∃ c, .published c publication ∈ history := by
  refine System.Exec.invariant
    (I := fun history s => ∀ publication ∈ s.publicationQueue.items, ∃ c, .published c publication ∈ history)
    (fun s start => ?_) (fun history s action s' events _ h step => ?_) run
  · cases start
    exact nofun
  · have kept : ∀ publication ∈ s.publicationQueue.items,
        ∃ c, .published c publication ∈ history ++ events := by
      intro publication mem
      obtain ⟨c, written⟩ := h publication mem
      exact ⟨c, List.mem_append_left _ written⟩
    cases Transition.of_next step with
    | receive =>
        rw [GnssStack.receiveSelected_publicationQueue]
        exact kept
    | @publish _ best publication =>
        intro other mem
        obtain rfl := List.mem_singleton.mp mem
        exact ⟨best, List.mem_append_right _ List.mem_cons_self⟩
    | publicationReceive received =>
        intro publication mem
        apply kept publication
        rw [BoundedQueue.receive_eq_some received]
        exact List.mem_cons_of_mem _ mem
    | _ => exact kept

theorem genuinePublication_of_exec {history : List GnssEvent} {s : GnssStack}
    (run : gnssSystem.Exec history s) :
    ∀ c publication, .published c publication ∈ history → GenuinePublication history publication c := by
  refine System.Exec.invariant
    (I := fun history _ =>
      ∀ c publication, .published c publication ∈ history → GenuinePublication history publication c)
    (fun s start => nofun) (fun history s action s' events earlier h step c publication mem => ?_) run
  have extend : GenuinePublication history publication c →
      GenuinePublication (history ++ events) publication c :=
    fun sound => ⟨sound.data, sound.hdopMilli, sound.len, sound.fits, sound.genuine.extend events⟩
  cases List.mem_append.mp mem with
  | inl old => exact extend (h c publication old)
  | inr new =>
      cases Transition.of_next step with
      | publish pc held copied =>
          cases List.mem_singleton.mp new
          exact extend ((integrity_of_exec earlier).genuinePublication held copied)
      | _ => simp at new

/-- Every publication, in the queue or written earlier, is a GGA line and an RMC
    line that one source fed in this order during one session; every candidate
    sent to the filter task is such a pair, and no access leaves its array. -/
theorem publications_genuine {history : List GnssEvent} {s : GnssStack}
    (run : gnssSystem.Exec history s) :
    (∀ publication ∈ s.publicationQueue.items, ∃ c, GenuinePublication history publication c) ∧
      (∀ c publication, .published c publication ∈ history → GenuinePublication history publication c) ∧
      (∀ c ∈ candidatesOf (enqueued history), Genuine history c) ∧ s.fault = false := by
  have integrity := integrity_of_exec run
  refine ⟨fun publication queued => ?_, genuinePublication_of_exec run, integrity.genuine, integrity.fault⟩
  obtain ⟨c, written⟩ := written_of_exec run publication queued
  exact ⟨c, genuinePublication_of_exec run c publication written⟩

def samplePublication : GnssPublication := ⟨1, 28, 1000, sampleGga ++ sampleRmc⟩

theorem uploadRun_genuine :
    ∃ c, GenuinePublication (uploadRun.get uploadRun_isSome).2 samplePublication c :=
  (publications_genuine uploadRun_exec).1 samplePublication (by decide +kernel)

end EspGnss.Gnss
