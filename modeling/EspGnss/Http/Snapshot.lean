import EspGnss.Http.Delivery

/-! # The first chunk of a response

A response starts with the snapshot that is stored at its first check, unless the number
of that snapshot is the one that stands for nothing sent.
-/

namespace EspGnss.Http

open Foundation Gnss HttpCall

variable {workers : Nat}

/-- The worker has received a request. -/
def StartsResponse (index : Fin workers) (step : HttpStep workers) : Prop :=
  ∃ request, step = ⟨.streamWorker index, ⟨requestQueueReceive .stream, request⟩⟩

/-- The worker has called `latest_publication_copy_if_new`. -/
def ChecksSnapshot (index : Fin workers) (step : HttpStep workers) : Prop :=
  ∃ lastSequence copied, step = ⟨.streamWorker index, ⟨latestCopyIfNew lastSequence, copied⟩⟩

/-- The worker has not looked at the snapshot since it received its last request. -/
def Unchecked (index : Fin workers) (history : List (HttpStep workers)) : Prop :=
  Since (StartsResponse index) (ChecksSnapshot index) history

/-- The publication that the dispatcher has received and not stored, whether a worker is
    before its first check, and what it has copied and not sent. -/
structure SnapshotGhost where
  held : Option GnssPublication
  fresh : Bool
  copied : Option GnssPublication

@[simps] def snapshotMonitor (t : HttpTask workers) : Monitor (@HttpCall.Reply workers) SnapshotGhost where
  allows ghost c := t.makes c ∧
    (∀ publication, ghost.copied = some publication → ∃ req, c = respSendChunk req publication.data publication.len) ∧
    match c with
    | latestStore publication => ghost.held = some publication
    | latestCopyIfNew lastSequence => ghost.fresh = true → lastSequence = 0
    | respSendChunk _ _ _ => ghost.copied.isSome
    | _ => True
  observe ghost
    | ⟨gnssPublicationReceive, received⟩ => { ghost with held := received }
    | ⟨latestStore _, _⟩ => { ghost with held := none }
    | ⟨requestQueueReceive _, _⟩ => { ghost with fresh := true }
    | ⟨latestCopyIfNew _, copied⟩ => { ghost with fresh := false, copied }
    | ⟨respSendChunk _ _ _, _⟩ => { ghost with copied := none }
    | _ => ghost

/-- A round starts with nothing copied, and a fresh response with nothing sent. -/
def SnapshotHead (t : HttpTask workers) (round : HttpRound) (ghost : SnapshotGhost) : Prop :=
  t.runs round ∧ ghost.copied = none ∧
    ∀ asyncReq lastSequence, round = .streaming asyncReq lastSequence → ghost.fresh = true → lastSequence = 0

section Heads

variable {ghost : SnapshotGhost} {index : Fin workers}

@[simp] theorem snapshotHead_dispatching :
    SnapshotHead (.dispatcher : HttpTask workers) .dispatching ghost ↔ ghost.copied = none := by
  simp [SnapshotHead, HttpTask.runs]

@[simp] theorem snapshotHead_streamReady :
    SnapshotHead (.streamWorker index) .streamReady ghost ↔ ghost.copied = none := by
  simp [SnapshotHead, HttpTask.runs]

@[simp] theorem snapshotHead_streaming {asyncReq : HttpAsyncRequest} {lastSequence : UInt32} :
    SnapshotHead (.streamWorker index) (.streaming asyncReq lastSequence) ghost ↔
      ghost.copied = none ∧ (ghost.fresh = true → lastSequence = 0) := by
  simp [SnapshotHead, HttpTask.runs]

end Heads

theorem notifyWorkers_snapshot {ghost : SnapshotGhost} (nothing : ghost.copied = none) (indexes : List (Fin workers)) :
    (notifyWorkers indexes).Meets (snapshotMonitor .dispatcher) (fun ghost _ => ghost.copied = none) ghost := by
  induction indexes with
  | nil => exact nothing
  | cons index rest ih => simp [notifyWorkers, nothing, ih]

theorem dispatchingRound_snapshot {ghost : SnapshotGhost} (nothing : ghost.copied = none) :
    dispatchingRound.Meets (snapshotMonitor (.dispatcher : HttpTask workers))
      (fun ghost round => SnapshotHead (.dispatcher : HttpTask workers) round ghost) ghost := by
  simp [dispatchingRound, nothing]
  intro received
  cases received with
  | none => simp
  | some publication =>
      simp
      exact notifyWorkers_snapshot rfl _

theorem streamReadyRound_snapshot (index : Fin workers) {ghost : SnapshotGhost} (nothing : ghost.copied = none) :
    streamReadyRound.Meets (snapshotMonitor (.streamWorker index))
      (fun ghost round => SnapshotHead (.streamWorker index) round ghost) ghost := by
  simp [streamReadyRound, nothing]
  intro received
  cases received <;> simp [genericLedClientConnected, genericLedWakeTask]

theorem streamingRound_snapshot (index : Fin workers) (asyncReq : HttpAsyncRequest) (lastSequence : UInt32)
    {ghost : SnapshotGhost} (nothing : ghost.copied = none) (starts : ghost.fresh = true → lastSequence = 0) :
    (streamingRound asyncReq lastSequence).Meets (snapshotMonitor (.streamWorker index))
      (fun ghost round => SnapshotHead (.streamWorker index) round ghost) ghost := by
  simp [streamingRound, nothing]
  refine ⟨starts, fun copied => ?_⟩
  cases copied <;>
    simp [streamClientIsConnected, streamFinish, genericLedPacketConsumed, genericLedClientDisconnected,
      genericLedWakeTask]

/-- The tasks that neither store nor copy publications. -/
theorem others_snapshot {t : HttpTask workers} {round : HttpRound} {ghost : SnapshotGhost}
    (other : t = .httpd ∨ t = .writeWorker ∨ t = .led ∨ t = .gnss) (runs : t.runs round) (nothing : ghost.copied = none) :
    round.program.Meets (snapshotMonitor t) (fun ghost round => SnapshotHead t round ghost) ghost := by
  have calls := CallTree.Meets.of_calls (m := snapshotMonitor t) (I := fun ghost => ghost.copied = none) (q := ghost)
    (fun ghost c nothing made => by
      have copies : ∀ publication, ghost.copied = some publication →
          ∃ req, c = respSendChunk req publication.data publication.len := by simp [nothing]
      have keeps : ∀ reply, ((snapshotMonitor t).observe ghost ⟨c, reply⟩).copied = none := by
        intro reply
        cases c with
        | latestCopyIfNew => rcases other with rfl | rfl | rfl | rfl <;> cases made
        | respSendChunk => rfl
        | _ => exact nothing
      refine ⟨⟨made, copies, ?_⟩, keeps⟩
      cases c with
      | latestStore | latestCopyIfNew | respSendChunk => rcases other with rfl | rfl | rfl | rfl <;> cases made
      | _ => trivial) (program_makes runs) nothing
  refine calls.mono fun ghost round ends => ⟨ends.2, ends.1, ?_⟩
  rintro asyncReq lastSequence rfl
  rcases other with rfl | rfl | rfl | rfl <;> cases ends.2

theorem round_snapshot {t : HttpTask workers} {round : HttpRound} {ghost : SnapshotGhost}
    (head : SnapshotHead t round ghost) :
    round.program.Meets (snapshotMonitor t) (fun ghost round => SnapshotHead t round ghost) ghost := by
  obtain ⟨runs, nothing, starts⟩ := head
  cases t with
  | dispatcher =>
      cases round with
      | dispatching => exact dispatchingRound_snapshot nothing
      | _ => cases runs
  | streamWorker index =>
      cases round with
      | streamReady => exact streamReadyRound_snapshot index nothing
      | streaming asyncReq lastSequence =>
          exact streamingRound_snapshot index asyncReq lastSequence nothing (starts asyncReq lastSequence rfl)
      | _ => cases runs
  | httpd | writeWorker | led | gnss => exact others_snapshot (by simp) runs nothing

def snapshotOutline (workers : Nat) :
    Outline (HttpTask workers) (@HttpCall.Reply workers) HttpRound fun _ => SnapshotGhost where
  observe t := (snapshotMonitor t).observe
  allows t _ := (snapshotMonitor t).allows
  head := SnapshotHead

/-- What is queued, held and stored was published. -/
structure Published (events : List GnssEvent) (gnss : GnssStack) (held latest : Option GnssPublication) : Prop where
  run : gnssSystem.Exec events gnss
  queued : ∀ publication ∈ gnss.publicationQueue.items, publication ∈ publicationsOf events
  held : ∀ publication ∈ held, publication ∈ publicationsOf events
  latest : ∀ publication ∈ latest, publication ∈ publicationsOf events

/-- A worker that has not checked yet is fresh, and the one that checked last has copied
    what it found. -/
structure Checked (history : List (HttpStep workers)) (ghosts : HttpTask workers → SnapshotGhost) : Prop where
  fresh : ∀ index, Unchecked index history → (ghosts (.streamWorker index)).fresh = true
  last : ∀ before index lastSequence copied,
    history = before ++ [⟨.streamWorker index, ⟨latestCopyIfNew lastSequence, copied⟩⟩] →
      (ghosts (.streamWorker index)).copied = copied ∧ (Unchecked index before → lastSequence = 0)

section Steps

variable {events events' : List GnssEvent} {gnss gnss' : GnssStack} {held latest : Option GnssPublication}
  {history : List (HttpStep workers)} {shared : HttpShared workers} {ghosts : HttpTask workers → SnapshotGhost}
  {t : HttpTask workers} {c : HttpCall workers} {reply : c.Reply}

theorem Published.next (published : Published events gnss held latest) {action : GnssAction}
    (step : gnss.next action = some (gnss', events')) (other : action ≠ .publicationReceive) :
    Published (events ++ events') gnss' held latest := by
  have run := published.run.next step
  have grown : ∀ publication ∈ publicationsOf events, publication ∈ publicationsOf (events ++ events') := by
    intro publication member
    rw [publicationsOf_append]
    exact List.mem_append_left _ member
  refine ⟨run, ?_, fun p has => grown p (published.held p has), fun p has => grown p (published.latest p has)⟩
  intro publication member
  rcases (Transition.of_next step).publishes published.run with ⟨-, -, queue⟩ | ⟨made, one, -, -, queue⟩
  · rw [queue other] at member
    exact grown publication (published.queued publication member)
  · rw [queue] at member
    obtain rfl := List.mem_singleton.mp member
    rw [publicationsOf_append, one]
    exact List.mem_append_right _ member

theorem Published.receive (published : Published events gnss held latest) {publication : GnssPublication}
    {queue : BoundedQueue GnssPublication 1} (received : gnss.publicationQueue.receive = some (publication, queue)) :
    Published events { gnss with publicationQueue := queue } (some publication) latest := by
  have step : gnss.next .publicationReceive = some ({ gnss with publicationQueue := queue }, []) := by
    simp only [GnssStack.next, received]
  have run := published.run.next step
  rw [List.append_nil] at run
  have items := BoundedQueue.receive_eq_some received
  refine ⟨run, ?_, ?_, published.latest⟩
  · intro other member
    exact published.queued other (items ▸ List.mem_cons_of_mem _ member)
  · intro other same
    cases same
    exact published.queued publication (items ▸ List.mem_cons_self)

/-- What a call does to the publications. -/
theorem Published.step (published : Published (gnssEvents history) shared.gnss (ghosts .dispatcher).held shared.latest)
    {answer : (c : HttpCall workers) → c.Reply} (allowed : (snapshotMonitor t).allows (ghosts t) c)
    (replied : shared.reply t answer c = some reply) :
    Published (gnssEvents (history ++ [⟨t, ⟨c, reply⟩⟩])) (shared.observe t ⟨c, reply⟩).gnss
      (Function.update ghosts t ((snapshotMonitor t).observe (ghosts t) ⟨c, reply⟩) .dispatcher).held
      (shared.observe t ⟨c, reply⟩).latest := by
  rw [gnssEvents_snoc]
  by_cases quiet : stores c = false
  · obtain ⟨gnss, latest⟩ := @observe_gnss _ t shared ⟨c, reply⟩ quiet
    have dispatcher : (Function.update ghosts t ((snapshotMonitor t).observe (ghosts t) ⟨c, reply⟩) .dispatcher).held =
        (ghosts .dispatcher).held := by
      rcases Decidable.eq_or_ne .dispatcher t with rfl | apart
      · rw [Function.update_self]
        cases c with
        | gnssPublicationReceive | latestStore => cases quiet
        | _ => rfl
      · rw [Function.update_of_ne apart]
    rw [gnss, latest, dispatcher, gnssEvents_quiet quiet, List.append_nil]
    exact published
  cases c with
  | gnssPublicationReceive =>
      obtain rfl : t = .dispatcher := by
        cases t <;> first | rfl | cases allowed.1
      obtain ⟨⟨publication, queue⟩, received, rfl⟩ := Option.map_eq_some_iff.mp replied
      have taken := Published.receive published received
      simpa [HttpShared.observe, received, gnssEvents] using taken
  | latestStore publication =>
      obtain rfl : t = .dispatcher := by
        cases t <;> first | rfl | cases allowed.1
      have has : (ghosts .dispatcher).held = some publication := allowed.2.2
      have stored : Published (gnssEvents history) shared.gnss none (some publication) :=
        ⟨published.run, published.queued, by simp, fun p same => published.held p (has.trans same)⟩
      simpa [HttpShared.observe, gnssEvents] using stored
  | gnssStep =>
      obtain rfl : t = .gnss := by
        cases t <;> first | rfl | cases allowed.1
      have stepped : (if (answer gnssStep).action = .publicationReceive then none
          else (shared.gnss.next (answer gnssStep).action).map fun stepped =>
            (⟨(answer gnssStep).action, stepped.2⟩ : GnssReply)) = some reply := replied
      split at stepped
      · cases stepped
      · rename_i other
        obtain ⟨⟨gnss, events⟩, step, rfl⟩ := Option.map_eq_some_iff.mp stepped
        have moved := Published.next published step other
        simpa [HttpShared.observe, step, gnssEvents] using moved
  | _ => exact absurd rfl quiet

theorem Checked.step (checked : Checked history ghosts) (allowed : (snapshotMonitor t).allows (ghosts t) c) :
    Checked (history ++ [⟨t, ⟨c, reply⟩⟩])
      (Function.update ghosts t ((snapshotMonitor t).observe (ghosts t) ⟨c, reply⟩)) := by
  constructor
  · intro index unchecked
    rcases since_snoc_iff.mp unchecked with starts | ⟨earlier, other⟩
    · obtain ⟨request, same⟩ := starts
      cases same
      simp
    · have before := checked.fresh index earlier
      rcases Decidable.eq_or_ne (.streamWorker index) t with rfl | apart
      · rw [Function.update_self]
        cases c with
        | latestCopyIfNew => exact absurd ⟨_, _, rfl⟩ other
        | requestQueueReceive => rfl
        | _ => exact before
      · rw [Function.update_of_ne apart]
        exact before
  · intro before index lastSequence copied split
    obtain ⟨rfl, same⟩ := List.append_inj' split rfl
    cases same
    rw [Function.update_self]
    exact ⟨rfl, fun unchecked => allowed.2.2 (checked.fresh index unchecked)⟩

end Steps

theorem snapshots_of_exec {history s} (run : (httpSystem workers).Exec history s) :
    ∃ ghosts, (Published (gnssEvents history) s.shared.gnss (ghosts .dispatcher).held s.shared.latest ∧
      Checked history ghosts) ∧ ∀ t, (snapshotOutline workers).Keeps t (s.task t) (ghosts t) := by
  have heads (t : HttpTask workers) : (snapshotOutline workers).head t t.start ⟨none, false, none⟩ := by
    refine ⟨by cases t <;> rfl, rfl, ?_⟩
    intro asyncReq lastSequence starts
    cases t <;> cases starts
  have published : Published [] GnssStack.initial none none :=
    ⟨.start rfl, by simp [GnssStack.initial, BoundedQueue.empty], by simp, by simp⟩
  have checked : Checked [] fun _ : HttpTask workers => ⟨none, false, none⟩ := by
    constructor
    · intro index since
      obtain ⟨before, step, after, split, -⟩ := since
      simp at split
    · intro before index lastSequence copied split
      simp at split
  have initially : Published (gnssEvents ([] : List (HttpStep workers))) (HttpShared.initial : HttpShared workers).gnss none
      (HttpShared.initial : HttpShared workers).latest ∧ Checked [] fun _ : HttpTask workers => ⟨none, false, none⟩ :=
    ⟨published, checked⟩
  exact Tasks.invariant_of_outline
    (I := fun history (shared : HttpShared workers) (ghosts : HttpTask workers → SnapshotGhost) =>
      Published (gnssEvents history) shared.gnss (ghosts .dispatcher).held shared.latest ∧ Checked history ghosts)
    (fun t round ghost head => round_snapshot head) heads initially
    (fun history shared ghosts t round c answer reply holds allowed replied =>
      ⟨holds.1.step allowed replied, holds.2.step allowed⟩) run

/-- Zero is the number of every 2^32nd publication. -/
theorem sequence_eq_zero_iff (number : Nat) : UInt32.ofNat number = 0 ↔ 2 ^ 32 ∣ number := by
  rw [← UInt32.toNat_inj, UInt32.toNat_ofNat', Nat.dvd_iff_mod_eq_zero]
  rfl

section First

variable {index : Fin workers} {history : List (HttpStep workers)} {lastSequence : UInt32}
  {copied : Option GnssPublication} {s : HttpStack workers} {publication : GnssPublication}

/-- The first check of a response finds every snapshot but one with the number zero. -/
theorem first_chunk_counted
    (run : (httpSystem workers).Exec (history ++ [⟨.streamWorker index, ⟨latestCopyIfNew lastSequence, copied⟩⟩]) s)
    (first : Unchecked index history) (stored : s.shared.latest = some publication) :
    (∃ req, (s.task (.streamWorker index)).program.head? =
      some (respSendChunk req publication.data publication.len)) ↔ publication.sequence ≠ 0 := by
  obtain ⟨ghosts, ⟨published, checked⟩, keeps⟩ := snapshots_of_exec run
  obtain ⟨found, zero⟩ := checked.last history index lastSequence copied rfl
  obtain rfl := zero first
  obtain ⟨before, answer, replied, observed⟩ := Tasks.last_call (httpTasks workers) run
  have copies : copied = s.shared.latest.filter (·.sequence ≠ 0) := by
    rw [observed]
    exact (Option.some.inj replied).symm
  rw [stored] at copies
  have keep := keeps (.streamWorker index)
  constructor
  · intro sends
    obtain ⟨req, about⟩ := sends
    have something : (ghosts (.streamWorker index)).copied.isSome := (keep.head? about).2.2
    rw [found, copies] at something
    intro zero
    simp [zero] at something
  · intro counted
    have copying : (ghosts (.streamWorker index)).copied = some publication := by
      rw [found, copies]
      simpa [Option.filter_some] using counted
    cases program : (s.task (.streamWorker index)).program with
    | done round =>
        rw [Outline.Keeps, program] at keep
        exact absurd (keep.2.1.symm.trans copying) (Option.some_ne_none _).symm
    | call c later =>
        rw [Outline.Keeps, program] at keep
        obtain ⟨req, rfl⟩ := keep.1.2.1 _ copying
        exact ⟨req, rfl⟩

/-- What is stored at a check has been published under its number. -/
theorem stored_number
    (run : (httpSystem workers).Exec (history ++ [⟨.streamWorker index, ⟨latestCopyIfNew lastSequence, copied⟩⟩]) s)
    (stored : s.shared.latest = some publication) :
    ∃ number, (made history)[number]? = some publication ∧ publication.sequence = .ofNat (number + 1) := by
  obtain ⟨ghosts, ⟨published, -⟩, -⟩ := snapshots_of_exec run
  have member := published.latest publication stored
  have numbered := (numbered_of_exec published.run).1
  rw [gnssEvents_snoc, gnssEvents_quiet rfl, List.append_nil] at member numbered
  obtain ⟨number, inside, rfl⟩ := List.getElem_of_mem member
  exact ⟨number, List.getElem?_eq_getElem inside, numbered.sequence_getElem inside⟩

/-- The snapshot that is stored at the first check of a response has a number other than
    zero, and is sent as the first chunk, exactly when the count of publications made up to
    it is no multiple of 2^32. -/
theorem first_chunk_iff
    (run : (httpSystem workers).Exec (history ++ [⟨.streamWorker index, ⟨latestCopyIfNew lastSequence, copied⟩⟩]) s)
    (first : Unchecked index history) (stored : s.shared.latest = some publication) :
    ∃ number, (made history)[number]? = some publication ∧
      (publication.sequence ≠ 0 ↔ ¬ 2 ^ 32 ∣ number + 1) ∧
      ((∃ req, (s.task (.streamWorker index)).program.head? =
        some (respSendChunk req publication.data publication.len)) ↔ ¬ 2 ^ 32 ∣ number + 1) := by
  obtain ⟨number, found, sequence⟩ := stored_number run stored
  have counted : publication.sequence ≠ 0 ↔ ¬ 2 ^ 32 ∣ number + 1 := by
    rw [sequence, Ne, sequence_eq_zero_iff]
  exact ⟨number, found, counted, (first_chunk_counted run first stored).trans counted⟩

end First

section Wrap

open Nmea

-- The antenna reports the same pair over and over, and no client is there until one connects
-- for a single publication that has not been overwritten.

/-- The tasks of `gnss.c` between two pairs, with an antenna that reports the pair below. -/
def idleGnss (sequence : UInt32) (queue : BoundedQueue GnssPublication 1) : GnssStack where
  input := .initial
  mutex := none
  queueSet := .empty
  publicationQueue := queue
  overrideFlushDone := false
  filter := ⟨.selecting, none, sequence⟩
  calls := fun _ => .idle
  uartReady := true
  session := 0
  fault := false

/-- `$,,GGA,,,,,,0*71` -/
def zeroGga : List UInt8 := [36, 44, 44, 71, 71, 65, 44, 44, 44, 44, 44, 44, 48, 42, 55, 49, 10]

/-- The publication of this line with `sampleRmc`. -/
def pairPublication (sequence : UInt32) : GnssPublication := ⟨sequence, 28, 0, zeroGga ++ sampleRmc⟩

/-- Bytes that complete no pair. -/
theorem replay_feed {s : GnssStack} {source : Source} {data rest : List UInt8} (fits : s.input.parserState.Fits)
    (feeding : s.mutex = some ⟨source, data ++ rest⟩)
    (quiet : (s.input.parserState.feedAll s.input.inputEpoch data).2 = []) :
    System.replay GnssStack.next s (List.replicate data.length .feedByte) =
      some ({ s with
          input := { s.input with parserState := (s.input.parserState.feedAll s.input.inputEpoch data).1 }
          mutex := some ⟨source, rest⟩ }, data.map (.accepted s.session source)) := by
  induction data generalizing s with
  | nil =>
      rw [List.nil_append] at feeding
      simp [System.replay, NmeaParserState.feedAll, ← feeding]
  | cons byte others ih =>
      simp only [NmeaParserState.feedAll, List.append_eq_nil_iff, Option.toList_eq_nil_iff] at quiet
      have fed := nmeaParserFeedByte_spec s.input.inputEpoch fits byte
      have step : s.next .feedByte = some ({ s with
          input := { s.input with parserState := (s.input.parserState.feed s.input.inputEpoch byte).1 }
          mutex := some ⟨source, others ++ rest⟩ }, [.accepted s.session source byte]) := by
        simp [GnssStack.next, GnssStack.feedByte, feeding, fed, quiet.1]
      have later := @ih { s with
          input := { s.input with parserState := (s.input.parserState.feed s.input.inputEpoch byte).1 }
          mutex := some ⟨source, others ++ rest⟩ } (fits.feed s.input.inputEpoch byte) rfl quiet.2
      rw [List.length_cons, List.replicate_succ, System.replay, step]
      simp only [Option.bind_eq_bind, Option.bind_some, later]
      rfl

def zeroCandidate : Candidate := ⟨⟨zeroGga, sampleRmc, 0, 1⟩, .uart, 0⟩

/-- The parser is being fed. -/
def feedingGnss (sequence : UInt32) (queue : BoundedQueue GnssPublication 1) (state : NmeaParserState)
    (rest : List UInt8) : GnssStack :=
  { idleGnss sequence queue with
    input := { GnssInput.initial with parserState := state }
    mutex := some ⟨.uart, rest⟩ }

/-- The candidate waits in its queue. -/
def queuedGnss (sequence : UInt32) (queue : BoundedQueue GnssPublication 1) : GnssStack :=
  { idleGnss sequence queue with
    mutex := some ⟨.uart, []⟩
    queueSet := (QueueSet.send .empty .candidate zeroCandidate).getD .empty }

/-- The last byte of the pair. -/
theorem last_byte (sequence : UInt32) (queue : BoundedQueue GnssPublication 1) :
    (feedingGnss sequence queue ⟨true, sampleRmc.dropLast, true, zeroGga, 0⟩ [10]).next .feedByte =
      some (queuedGnss sequence queue, [.accepted 0 .uart 10, .enqueued (.candidate zeroCandidate)]) := by
  have emits : nmeaParserFeedByte 1 ⟨true, sampleRmc.dropLast, true, zeroGga, 0⟩ 10 =
      some (.reset, some ⟨zeroGga, sampleRmc, 0, 1⟩) := by decide +kernel
  simp only [GnssStack.next, GnssStack.feedByte, feedingGnss, GnssInput.initial, emits]
  rfl

theorem queueSet_eq_empty {set : FilterQueueSet} (ready : set.ready = .empty) (members : ∀ m, set.member m = .empty) :
    set = .empty := by
  obtain ⟨member, entries⟩ := set
  obtain rfl := ready
  obtain rfl := funext members
  rfl

/-- The timer makes the filter task publish the candidate. -/
theorem queued_published (sequence : UInt32) (queue : BoundedQueue GnssPublication 1) :
    ∃ events, System.replay GnssStack.next (queuedGnss sequence queue)
        ([.feedReturn, .timerExpire] ++ List.replicate 7 .filterStep) =
          some (idleGnss (sequence + 1) (.overwrite rfl (pairPublication sequence)), events) ∧
      publicationsOf events = [pairPublication sequence] := by
  have played : ∃ queueSet events, System.replay GnssStack.next (queuedGnss sequence queue)
        ([.feedReturn, .timerExpire] ++ List.replicate 7 .filterStep) =
          some ({ idleGnss (sequence + 1) (.overwrite rfl (pairPublication sequence)) with queueSet }, events) ∧
      (queueSet.ready = .empty ∧ ∀ m, queueSet.member m = .empty) ∧
      publicationsOf events = [pairPublication sequence] := by
    refine ⟨_, _, rfl, ⟨rfl, ?_⟩, rfl⟩
    intro m
    cases m <;> rfl
  obtain ⟨queueSet, events, played, empty, published⟩ := played
  obtain rfl := queueSet_eq_empty empty.1 empty.2
  exact ⟨events, played, published⟩

def pairSchedule : List GnssAction :=
  [.uartFeed (zeroGga ++ sampleRmc)] ++ (List.replicate 27 .feedByte ++
    ([.feedByte] ++ ([.feedReturn, .timerExpire] ++ List.replicate 7 .filterStep)))

theorem pair_published (sequence : UInt32) (queue : BoundedQueue GnssPublication 1) :
    ∃ events, System.replay GnssStack.next (idleGnss sequence queue) pairSchedule =
          some (idleGnss (sequence + 1) (.overwrite rfl (pairPublication sequence)), events) ∧
      publicationsOf events = [pairPublication sequence] := by
  obtain ⟨later, published, publications⟩ := queued_published sequence queue
  have quiet : NmeaParserState.reset.feedAll 1 (zeroGga ++ sampleRmc.dropLast) =
      (⟨true, sampleRmc.dropLast, true, zeroGga, 0⟩, []) := by decide +kernel
  have opened : System.replay GnssStack.next (idleGnss sequence queue) [.uartFeed (zeroGga ++ sampleRmc)] =
      some (feedingGnss sequence queue .reset (zeroGga ++ sampleRmc), []) := rfl
  have fed := @replay_feed (feedingGnss sequence queue .reset (zeroGga ++ sampleRmc)) .uart
    (zeroGga ++ sampleRmc.dropLast) [10] .reset rfl (congrArg Prod.snd quiet)
  have parsed : ((feedingGnss sequence queue .reset (zeroGga ++ sampleRmc)).input.parserState.feedAll
      (feedingGnss sequence queue .reset (zeroGga ++ sampleRmc)).input.inputEpoch (zeroGga ++ sampleRmc.dropLast)).1 =
        ⟨true, sampleRmc.dropLast, true, zeroGga, 0⟩ := congrArg Prod.fst quiet
  rw [parsed] at fed
  have sent : System.replay GnssStack.next
      (feedingGnss sequence queue ⟨true, sampleRmc.dropLast, true, zeroGga, 0⟩ [10]) [.feedByte] =
        some (queuedGnss sequence queue, [.accepted 0 .uart 10, .enqueued (.candidate zeroCandidate)]) := by
    rw [System.replay, last_byte]
    rfl
  have whole := System.replay_append opened (System.replay_append fed (System.replay_append sent published))
  refine ⟨_, whole, ?_⟩
  simp only [publicationsOf_append, publications]
  rfl

/-- A step of the tasks of `gnss.c` and the start of their next round. -/
theorem gnss_step {s : HttpStack workers} (ready : s.task .gnss = (httpTasks workers).begin .gnss .gnss)
    {action : GnssAction} (other : action ≠ .publicationReceive) {gnss : GnssStack} {events : List GnssEvent}
    (step : s.shared.gnss.next action = some (gnss, events)) :
    System.replay (httpTasks workers).next s (List.replicate 2 (.gnss, HttpCall.succeeds action)) =
      some ({ s with shared := { s.shared with gnss } }, [⟨.gnss, ⟨gnssStep, ⟨action, events⟩⟩⟩]) := by
  have replied : s.shared.reply .gnss (HttpCall.succeeds action) gnssStep = some ⟨action, events⟩ := by
    simp [HttpShared.reply, HttpCall.succeeds, other, step]
  have running : s.task .gnss = ⟨.gnss, .call gnssStep fun _ => .done .gnss⟩ := ready
  have performed : (httpTasks workers).next s (.gnss, HttpCall.succeeds action) =
      some ({ shared := s.shared.observe .gnss ⟨gnssStep, ⟨action, events⟩⟩
              task := Function.update s.task .gnss ⟨.gnss, .done .gnss⟩ },
        [⟨.gnss, ⟨gnssStep, ⟨action, events⟩⟩⟩]) := by
    simp only [Tasks.next, running]
    change (s.shared.reply .gnss (HttpCall.succeeds action) gnssStep).map _ = _
    rw [replied]
    rfl
  have observed : s.shared.observe .gnss ⟨gnssStep, ⟨action, events⟩⟩ = { s.shared with gnss } := by
    simp [HttpShared.observe, step]
  have same : Function.update s.task .gnss ((httpTasks workers).begin .gnss .gnss) = s.task := by
    rw [← ready, Function.update_eq_self]
  rw [List.replicate_succ, List.replicate_one, System.replay, performed, observed]
  simp [System.replay, Tasks.next, same]

theorem gnss_replay {schedule : List GnssAction} (others : .publicationReceive ∉ schedule)
    {history : List (HttpStep workers)} {s : HttpStack workers} (run : (httpSystem workers).Exec history s)
    (ready : s.task .gnss = (httpTasks workers).begin .gnss .gnss) {gnss : GnssStack} {events : List GnssEvent}
    (played : System.replay GnssStack.next s.shared.gnss schedule = some (gnss, events)) :
    ∃ later, (httpSystem workers).Exec (history ++ later) { s with shared := { s.shared with gnss } } ∧
      gnssEvents later = events := by
  induction schedule generalizing history s events with
  | nil =>
      cases played
      exact ⟨[], by simpa using run, rfl⟩
  | cons action rest ih =>
      simp only [System.replay, Option.bind_eq_bind, Option.bind_eq_some_iff, Option.pure_def, Option.some.injEq,
        Prod.mk.injEq, Prod.exists] at played
      obtain ⟨between, here, step, last, behind, onward, rfl, rfl⟩ := played
      obtain ⟨notHere, notLater⟩ : action ≠ .publicationReceive ∧ .publicationReceive ∉ rest := by
        simpa [eq_comm] using others
      have stepped := gnss_step ready notHere step
      have reached : (httpSystem workers).Exec _ _ := System.Exec.replay_from run stepped
      obtain ⟨later, continued, made⟩ := @ih notLater _ _ reached ready _ onward
      refine ⟨_, by simpa using continued, ?_⟩
      rw [← made]
      rfl

/-- The HTTP stack with no client, after `number` publications. -/
def idleHttp (number : Nat) (queue : BoundedQueue GnssPublication 1) : HttpStack workers :=
  { (httpTasks workers).initial .initial HttpTask.start with
    shared := { HttpShared.initial with gnss := idleGnss (.ofNat (number + 1)) queue } }

/-- One publication more. -/
theorem idleHttp_publishes {number : Nat} {queue : BoundedQueue GnssPublication 1} {history : List (HttpStep workers)}
    (run : (httpSystem workers).Exec history (idleHttp number queue)) :
    ∃ later, (httpSystem workers).Exec (history ++ later)
        (idleHttp (number + 1) (.overwrite rfl (pairPublication (.ofNat (number + 1))))) ∧
      made (history ++ later) = made history ++ [pairPublication (.ofNat (number + 1))] := by
  obtain ⟨events, played, published⟩ := pair_published (.ofNat (number + 1)) queue
  obtain ⟨later, run, same⟩ := gnss_replay (by decide) run rfl played
  have next : UInt32.ofNat (number + 1) + 1 = .ofNat (number + 1 + 1) := by
    rw [UInt32.ofNat_add (number + 1) 1]
    rfl
  rw [next] at run
  refine ⟨later, run, ?_⟩
  rw [made, made, gnssEvents, gnssEvents, List.flatMap_append, publicationsOf_append]
  exact congrArg _ ((congrArg publicationsOf same).trans published)

theorem publications_exec (number : Nat) : ∃ history queue, (httpSystem workers).Exec history (idleHttp number queue) ∧
    made history = (List.range number).map (fun index => pairPublication (.ofNat (index + 1))) := by
  induction number with
  | zero =>
      have started : (httpSystem workers).Exec [] _ := .start rfl
      obtain ⟨later, run, quiet⟩ := @gnss_replay workers [.initReset] (by simp) _ _ started rfl _ _ rfl
      exact ⟨later, .empty, run, by rw [made, quiet]; rfl⟩
  | succ number ih =>
      obtain ⟨history, queue, run, before⟩ := ih
      obtain ⟨later, run, grown⟩ := idleHttp_publishes run
      refine ⟨history ++ later, _, run, ?_⟩
      rw [grown, before, List.range_succ, List.map_append]
      rfl

abbrev firstWorker : HttpTask 1 := .streamWorker 0

/-- The dispatcher stores the publication and a request is queued. -/
def requestSchedule : List (HttpTask 1) :=
  List.replicate 2 .dispatcher ++ firstWorker :: List.replicate 4 .httpd

/-- The worker receives the request and goes on to its first check. -/
theorem client_replay (number : Nat) (sequence : UInt32) : ∃ s₁ before s₂ request s₃ after s₄ copied,
    (System.replay (httpTasks 1).next (idleHttp number (.overwrite rfl (pairPublication sequence)))
        (requestSchedule.map fun t => (t, HttpCall.succeeds .feedByte)) = some (s₁, before) ∧
      (httpTasks 1).next s₁ (firstWorker, HttpCall.succeeds .feedByte) =
        some (s₂, [⟨firstWorker, ⟨requestQueueReceive .stream, request⟩⟩]) ∧
      System.replay (httpTasks 1).next s₂ (List.replicate 7 (firstWorker, HttpCall.succeeds .feedByte)) =
        some (s₃, after) ∧
      (httpTasks 1).next s₃ (firstWorker, HttpCall.succeeds .feedByte) =
        some (s₄, [⟨firstWorker, ⟨latestCopyIfNew 0, copied⟩⟩])) ∧
    gnssEvents before = [] ∧ gnssEvents after = [] ∧ s₄.shared.latest = some (pairPublication sequence) ∧
      (after.all fun step => match step.event.call with | latestCopyIfNew _ => false | _ => true) = true :=
  ⟨_, _, _, _, _, _, _, _, ⟨rfl, rfl, rfl, rfl⟩, rfl, rfl, rfl, rfl⟩

theorem client_exec (number : Nat) : ∃ history copied s,
    (httpSystem 1).Exec (history ++ [⟨firstWorker, ⟨latestCopyIfNew 0, copied⟩⟩]) s ∧ Unchecked 0 history ∧
      s.shared.latest = some (pairPublication (.ofNat (number + 1))) ∧
      made history = (List.range (number + 1)).map fun index => pairPublication (.ofNat (index + 1)) := by
  obtain ⟨earlier, queue, run, publications⟩ := @publications_exec 1 number
  obtain ⟨later, run, grown⟩ := idleHttp_publishes run
  obtain ⟨s₁, before, s₂, request, s₃, after, s₄, copied, ⟨stores, receives, goesOn, checks⟩, quiet, quiet', stored, unchecked⟩ :=
    client_replay (number + 1) (.ofNat (number + 1))
  have connected : (httpSystem 1).Exec _ s₁ := run.replay_from stores
  have received : (httpSystem 1).Exec _ s₂ := connected.next receives
  have ready : (httpSystem 1).Exec _ s₃ := received.replay_from goesOn
  have checked : (httpSystem 1).Exec _ s₄ := ready.next checks
  refine ⟨_, copied, s₄, checked, ?_, stored, ?_⟩
  · refine ⟨earlier ++ later ++ before, _, after, by simp, ⟨request, rfl⟩, ?_⟩
    intro step member check
    obtain ⟨lastSequence, found, rfl⟩ := check
    exact absurd (List.all_eq_true.mp unchecked _ member) Bool.false_ne_true
  · have silent : gnssEvents [(⟨firstWorker, ⟨requestQueueReceive .stream, request⟩⟩ : HttpStep 1)] = [] := rfl
    have same : made (earlier ++ later ++ before ++ [⟨firstWorker, ⟨requestQueueReceive .stream, request⟩⟩] ++ after) =
        made (earlier ++ later) := by
      simp only [made, gnssEvents, List.flatMap_append] at quiet quiet' silent ⊢
      rw [quiet, quiet', silent]
      simp
    rw [same, grown, publications, List.range_succ, List.map_append]
    rfl

/-- The first publication is the first chunk of a response. -/
theorem first_publication_sent : ∃ history copied s,
    (httpSystem 1).Exec (history ++ [⟨firstWorker, ⟨latestCopyIfNew 0, copied⟩⟩]) s ∧
      ∃ req, (s.task firstWorker).program.head? = some (respSendChunk req (zeroGga ++ sampleRmc) 28) := by
  obtain ⟨history, copied, s, run, first, stored, publications⟩ := client_exec 0
  obtain ⟨number, found, -, sends⟩ := first_chunk_iff run first stored
  have only : number + 1 = 1 := by
    obtain ⟨inside, -⟩ := List.getElem?_eq_some_iff.mp found
    rw [publications, List.length_map, List.length_range] at inside
    omega
  exact ⟨history, copied, s, run, sends.mpr (by omega)⟩

/-- The 2^32nd publication is stored and not sent to a new client. -/
theorem wrapped_publication_withheld : ∃ history copied s publication,
    (httpSystem 1).Exec (history ++ [⟨firstWorker, ⟨latestCopyIfNew 0, copied⟩⟩]) s ∧ Unchecked 0 history ∧
      (made history).length = 2 ^ 32 ∧ s.shared.latest = some publication ∧ publication.sequence = 0 ∧
      ¬ ∃ req, (s.task firstWorker).program.head? = some (respSendChunk req publication.data publication.len) := by
  obtain ⟨history, copied, s, run, first, stored, publications⟩ := client_exec (2 ^ 32 - 1)
  have zero : (pairPublication (.ofNat (2 ^ 32 - 1 + 1))).sequence = 0 := (sequence_eq_zero_iff _).mpr (by omega)
  refine ⟨history, copied, s, _, run, first, ?_, stored, zero, ?_⟩
  · rw [publications, List.length_map, List.length_range]
    omega
  · intro sends
    exact (first_chunk_counted run first stored).mp sends zero

end Wrap

end EspGnss.Http
