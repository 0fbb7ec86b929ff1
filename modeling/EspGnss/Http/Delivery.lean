import EspGnss.Foundation.Broadcast
import EspGnss.Gnss.Numbering
import EspGnss.Http.Calls

/-! # What stream clients receive

The publication queue is the mailbox of a broadcast, `s_latest_publication` its snapshot,
and every stream worker a reader that tells publications apart by their numbers.
-/

namespace EspGnss.Http

open Foundation Gnss HttpCall

variable {workers : Nat}

/-- What the tasks of `gnss.c` have done. -/
def gnssEvents (history : List (HttpStep workers)) : List GnssEvent :=
  history.flatMap fun step =>
    match step.event with
    | ⟨gnssStep, stepped⟩ => stepped.events
    | _ => []

/-- The publications, in the order in which they were made. -/
def made (history : List (HttpStep workers)) : List GnssPublication := publicationsOf (gnssEvents history)

/-- A call of `httpd_resp_send_chunk` with its result, and what was stored when the worker
    last checked. -/
structure SendAttempt where
  stored : Option GnssPublication
  data : List UInt8
  len : UInt16
  err : EspErr
  deriving DecidableEq, Repr

/-- What the dispatcher stored last, what that was when the worker last checked, and what the
    worker has tried to send to its last client. -/
structure StreamResponse where
  stored : Option GnssPublication
  checked : Option GnssPublication
  attempts : List SendAttempt

namespace StreamResponse

/-- What a call of the worker adds. -/
def serve (r : StreamResponse) : HttpEvent workers → StreamResponse
  | ⟨requestQueueReceive _, _⟩ => { r with attempts := [] }
  | ⟨latestCopyIfNew _, _⟩ => { r with checked := r.stored }
  | ⟨respSendChunk _ data len, err⟩ => { r with attempts := r.attempts ++ [⟨r.checked, data, len, err⟩] }
  | _ => r

def after (index : Fin workers) (r : StreamResponse) (step : HttpStep workers) : StreamResponse :=
  match step.event with
  | ⟨latestStore publication, _⟩ => { r with stored := some publication }
  | event => if step.task = .streamWorker index then r.serve event else r

/-- The publications that have been sent successfully. -/
def sent (r : StreamResponse) : List GnssPublication :=
  (r.attempts.filter (·.err = espOk)).filterMap (·.stored)

end StreamResponse

/-- The last response of a worker. -/
def streamResponse (index : Fin workers) (history : List (HttpStep workers)) : StreamResponse :=
  history.foldl (StreamResponse.after index) ⟨none, none, []⟩

/-- Every copy that was sent is what was stored at the check, and what was sent successfully
    are publications in increasing order. -/
structure Delivers (made : List GnssPublication) (r : StreamResponse) : Prop where
  copies : ∀ attempt ∈ r.attempts, ∃ publication, attempt.stored = some publication ∧
    attempt.data = publication.data ∧ attempt.len = publication.len
  sent : r.sent.Sublist made
  increasing : r.sent.Pairwise fun first second => first.sequence < second.sequence

/-- The publication that the dispatcher has received and not stored, `last_sequence` of a
    worker, and what its last check found since it last sent or waited. -/
structure DeliveryGhost where
  held : Option GnssPublication
  lastSequence : UInt32
  found : Option (Option GnssPublication)

/-- What a successful send leaves in `last_sequence`. -/
def DeliveryGhost.sentSequence (ghost : DeliveryGhost) : UInt32 :=
  match ghost.found with
  | some (some publication) => publication.sequence
  | some none | none => ghost.lastSequence

@[simps] def deliveryMonitor (t : HttpTask workers) : Monitor (@HttpCall.Reply workers) DeliveryGhost where
  allows ghost c := t.makes c ∧ match c with
    | latestStore publication => ghost.held = some publication
    | latestCopyIfNew lastSequence => ghost.lastSequence = lastSequence
    | respSendChunk _ data len => ∃ publication, ghost.found = some (some publication) ∧
        data = publication.data ∧ len = publication.len
    | notifyTake .disconnectCheck => ghost.found = some none
    | _ => True
  observe ghost
    | ⟨gnssPublicationReceive, received⟩ => { ghost with held := received }
    | ⟨latestStore _, _⟩ => { ghost with held := none }
    | ⟨requestQueueReceive _, _⟩ => { ghost with lastSequence := 0, found := none }
    | ⟨latestCopyIfNew _, copied⟩ => { ghost with found := some copied }
    | ⟨respSendChunk _ _ _, err⟩ =>
        { ghost with lastSequence := if err = espOk then ghost.sentSequence else ghost.lastSequence, found := none }
    | ⟨notifyTake _, _⟩ => { ghost with found := none }
    | _ => ghost

/-- The loop of `stream_response_send` starts with the variable `last_sequence`. -/
def DeliveryHead (t : HttpTask workers) (round : HttpRound) (ghost : DeliveryGhost) : Prop :=
  t.runs round ∧ ∀ asyncReq lastSequence, round = .streaming asyncReq lastSequence →
    ghost.lastSequence = lastSequence

section Heads

variable {ghost : DeliveryGhost} {index : Fin workers}

@[simp] theorem deliveryHead_dispatching : DeliveryHead (.dispatcher : HttpTask workers) .dispatching ghost :=
  ⟨rfl, by simp⟩

@[simp] theorem deliveryHead_streamReady : DeliveryHead (.streamWorker index) .streamReady ghost := ⟨rfl, by simp⟩

@[simp] theorem deliveryHead_streaming {asyncReq : HttpAsyncRequest} {lastSequence : UInt32} :
    DeliveryHead (.streamWorker index) (.streaming asyncReq lastSequence) ghost ↔
      ghost.lastSequence = lastSequence := by
  simp [DeliveryHead, HttpTask.runs]

end Heads

theorem notifyWorkers_delivers {ghost : DeliveryGhost} (indexes : List (Fin workers)) :
    (notifyWorkers indexes).Meets (deliveryMonitor .dispatcher) (fun _ _ => True) ghost := by
  induction indexes with
  | nil => trivial
  | cons index rest ih => simp [notifyWorkers, ih]

theorem dispatchingRound_delivers {ghost : DeliveryGhost} :
    dispatchingRound.Meets (deliveryMonitor (.dispatcher : HttpTask workers))
      (fun ghost round => DeliveryHead (.dispatcher : HttpTask workers) round ghost) ghost := by
  simp [dispatchingRound]
  intro received
  cases received with
  | none => simp
  | some publication =>
      simp
      exact notifyWorkers_delivers _

theorem streamReadyRound_delivers (index : Fin workers) {ghost : DeliveryGhost} :
    streamReadyRound.Meets (deliveryMonitor (.streamWorker index))
      (fun ghost round => DeliveryHead (.streamWorker index) round ghost) ghost := by
  simp [streamReadyRound]
  intro received
  cases received <;>
    simp [genericLedClientConnected, genericLedWakeTask]

theorem streamingRound_delivers (index : Fin workers) (asyncReq : HttpAsyncRequest) {ghost : DeliveryGhost} :
    (streamingRound asyncReq ghost.lastSequence).Meets (deliveryMonitor (.streamWorker index))
      (fun ghost round => DeliveryHead (.streamWorker index) round ghost) ghost := by
  simp [streamingRound]
  intro copied
  cases copied <;>
    simp [streamClientIsConnected, streamFinish, genericLedPacketConsumed, genericLedClientDisconnected,
      genericLedWakeTask, DeliveryGhost.sentSequence]

/-- The tasks that neither store nor send publications. -/
theorem others_deliver {t : HttpTask workers} {round : HttpRound} {ghost : DeliveryGhost}
    (other : t = .httpd ∨ t = .writeWorker ∨ t = .led ∨ t = .gnss) (runs : t.runs round) :
    round.program.Meets (deliveryMonitor t) (fun ghost round => DeliveryHead t round ghost) ghost := by
  have calls := CallTree.Meets.of_calls (m := deliveryMonitor t) (I := fun _ => True) (q := ghost)
    (fun ghost c _ made => by
      refine ⟨⟨made, ?_⟩, fun _ => trivial⟩
      cases c with
      | latestStore | latestCopyIfNew | respSendChunk => rcases other with rfl | rfl | rfl | rfl <;> cases made
      | notifyTake wait => rcases other with rfl | rfl | rfl | rfl <;> cases wait <;> trivial
      | _ => trivial) (program_makes runs) trivial
  refine calls.mono fun ghost round ends => ⟨ends.2, ?_⟩
  rintro asyncReq lastSequence rfl
  rcases other with rfl | rfl | rfl | rfl <;> cases ends.2

theorem round_delivers {t : HttpTask workers} {round : HttpRound} {ghost : DeliveryGhost}
    (head : DeliveryHead t round ghost) :
    round.program.Meets (deliveryMonitor t) (fun ghost round => DeliveryHead t round ghost) ghost := by
  obtain ⟨runs, starts⟩ := head
  cases t with
  | dispatcher =>
      cases round with
      | dispatching => exact dispatchingRound_delivers
      | _ => cases runs
  | streamWorker index =>
      cases round with
      | streamReady => exact streamReadyRound_delivers index
      | streaming asyncReq lastSequence =>
          obtain rfl := starts asyncReq lastSequence rfl
          exact streamingRound_delivers index asyncReq
      | _ => cases runs
  | httpd | writeWorker | led | gnss => exact others_deliver (by simp) runs

/-- A worker and its response are a reader of the broadcast. -/
structure Reading (r : StreamResponse) (ghost : DeliveryGhost) (reader : Reader GnssPublication) : Prop where
  sent : reader.sent = r.sent
  last : ghost.lastSequence = (r.sent.getLast?.map (·.sequence)).getD 0
  copied : ∀ publication, ghost.found = some (some publication) →
    reader.copied = some publication ∧ r.checked = some publication
  nothing : ghost.found = some none → r.checked = none ∨ r.sent.getLast? = r.checked
  copies : ∀ attempt ∈ r.attempts, ∃ publication, attempt.stored = some publication ∧
    attempt.data = publication.data ∧ attempt.len = publication.len

/-- The tasks carry out a broadcast. -/
structure Delivering (events : List GnssEvent) (gnss : GnssStack) (held latest : Option GnssPublication)
    (rs : Fin workers → StreamResponse) (ghosts : Fin workers → DeliveryGhost)
    (b : Broadcast (Fin workers) GnssPublication) : Prop where
  run : gnssSystem.Exec events gnss
  made : b.made = publicationsOf events
  queued : b.queued.toList = gnss.publicationQueue.items
  taken : b.held = held
  snapshot : b.stored.getLast? = latest
  known : ∀ index, (rs index).stored = latest
  reading : ∀ index, Reading (rs index) (ghosts index) (b.reader index)

namespace Delivering

variable {events : List GnssEvent} {gnss : GnssStack} {held latest : Option GnssPublication}
  {rs : Fin workers → StreamResponse} {ghosts : Fin workers → DeliveryGhost}
  {b : Broadcast (Fin workers) GnssPublication}

theorem publish (delivering : Delivering events gnss held latest rs ghosts b) {action : GnssAction}
    {gnss' : GnssStack} {events' : List GnssEvent} (step : gnss.next action = some (gnss', events'))
    (other : action ≠ .publicationReceive) :
    ∃ b', Delivering (events ++ events') gnss' held latest rs ghosts b' := by
  have run := delivering.run.next step
  rcases (Transition.of_next step).publishes delivering.run with ⟨none, -, queue⟩ | ⟨publication, one, -, -, queue⟩
  · refine ⟨b, { delivering with run := run, made := ?_, queued := ?_ }⟩
    · rw [publicationsOf_append, none, List.append_nil, delivering.made]
    · rw [queue other, delivering.queued]
  · refine ⟨b.make publication, { delivering with run := run, made := ?_, queued := ?_ }⟩
    · rw [publicationsOf_append, one, ← delivering.made]
      rfl
    · rw [queue]
      rfl

theorem receive (delivering : Delivering events gnss held latest rs ghosts b) {publication : GnssPublication}
    {queue : BoundedQueue GnssPublication 1} (received : gnss.publicationQueue.receive = some (publication, queue)) :
    Delivering events { gnss with publicationQueue := queue } (some publication) latest rs ghosts b.take := by
  have step : gnss.next .publicationReceive = some ({ gnss with publicationQueue := queue }, []) := by
    simp only [GnssStack.next, received]
  have run := delivering.run.next step
  rw [List.append_nil] at run
  have items := BoundedQueue.receive_eq_some received
  have bounded := gnss.publicationQueue.bounded
  rw [items, List.length_cons] at bounded
  have rest : queue.items = [] := List.length_eq_zero_iff.mp (by omega)
  have queued := delivering.queued
  rw [items, rest] at queued
  refine { delivering with run := run, queued := rest.symm, taken := ?_ }
  exact Option.toList_eq_singleton_iff.mp queued

theorem store {publication : GnssPublication} (delivering : Delivering events gnss held latest rs ghosts b)
    (has : held = some publication) :
    Delivering events gnss none (some publication) (fun index => { rs index with stored := some publication })
      ghosts b.store := by
  refine { delivering with taken := rfl, snapshot := ?_, known := fun _ => rfl, reading := fun index => ?_ }
  · change (b.stored ++ b.held.toList).getLast? = some publication
    rw [delivering.taken, has]
    simp
  · exact { delivering.reading index with }

theorem move (delivering : Delivering events gnss held latest rs ghosts b) {index : Fin workers}
    {r : StreamResponse} {ghost : DeliveryGhost} {reader : Reader GnssPublication}
    (reads : (reader.sent ++ reader.copied.toList).Sublist b.stored)
    (stored : r.stored = (rs index).stored) (reading : Reading r ghost reader) :
    Delivering events gnss held latest (Function.update rs index r) (Function.update ghosts index ghost)
      (b.move index reader reads) := by
  refine { delivering with known := fun other => ?_, reading := fun other => ?_ }
  · rcases Decidable.eq_or_ne other index with rfl | apart
    · rw [Function.update_self, stored, delivering.known]
    · rw [Function.update_of_ne apart, delivering.known]
  · change Reading _ _ (Function.update b.reader index reader other)
    rcases Decidable.eq_or_ne other index with rfl | apart
    · simpa only [Function.update_self] using reading
    · simpa only [Function.update_of_ne apart] using delivering.reading other

/-- A worker tells by the numbers whether the snapshot is what it has sent last. -/
theorem news_eq (delivering : Delivering events gnss held latest rs ghosts b)
    (few : (publicationsOf events).length < 2 ^ 32 - 1) (index : Fin workers) :
    b.news index = latest.filter (·.sequence ≠ (ghosts index).lastSequence) := by
  have numbered := (numbered_of_exec delivering.run).1
  have reading := delivering.reading index
  rw [Broadcast.news, delivering.snapshot, reading.last, ← reading.sent]
  cases latest with
  | none => rfl
  | some publication =>
      have member : publication ∈ publicationsOf events := by
        rw [← delivering.made]
        exact b.stored_sublist.subset (List.mem_of_getLast? delivering.snapshot)
      cases last : (b.reader index).sent.getLast? with
      | none =>
          have counted := numbered.sequence_ne_zero few member
          simp [Option.filter_some, counted]
      | some sent =>
          have sentMember : sent ∈ publicationsOf events := by
            rw [← delivering.made]
            exact (b.sent_sublist index).subset (List.mem_of_getLast? last)
          have same : publication.sequence = sent.sequence ↔ sent = publication := by
            constructor
            · intro number
              exact numbered.sequence_inj few sentMember member number.symm
            · rintro rfl
              rfl
          simp [Option.filter_some, same]

end Delivering

namespace Reading

variable {r : StreamResponse} {ghost : DeliveryGhost} {reader : Reader GnssPublication}

theorem connect : Reading { r with attempts := [] } { ghost with lastSequence := 0, found := none } ⟨none, []⟩ :=
  ⟨rfl, rfl, by simp, by simp, by simp⟩

theorem check (reading : Reading r ghost reader) {copied : Option GnssPublication}
    (found : copied = r.stored.filter (·.sequence ≠ ghost.lastSequence))
    (nothing : copied = none → r.stored = none ∨ reader.sent.getLast? = r.stored) :
    Reading { r with checked := r.stored } { ghost with found := some copied } ⟨copied, reader.sent⟩ := by
  refine { reading with copied := ?_, nothing := ?_ }
  · intro publication same
    obtain rfl : copied = some publication := Option.some.inj same
    exact ⟨rfl, (Option.filter_eq_some_iff.mp found.symm).1⟩
  · intro same
    obtain rfl : copied = none := Option.some.inj same
    change r.stored = none ∨ r.sent.getLast? = r.stored
    rw [← reading.sent]
    exact nothing rfl

theorem wait (reading : Reading r ghost reader) : Reading r { ghost with found := none } reader :=
  { reading with copied := by simp, nothing := by simp }

theorem send (reading : Reading r ghost reader) {publication : GnssPublication}
    (found : ghost.found = some (some publication)) {err : EspErr} :
    Reading { r with attempts := r.attempts ++ [⟨r.checked, publication.data, publication.len, err⟩] }
      { ghost with lastSequence := if err = espOk then ghost.sentSequence else ghost.lastSequence, found := none }
      ⟨none, if err = espOk then reader.sent ++ reader.copied.toList else reader.sent⟩ := by
  obtain ⟨copied, checked⟩ := reading.copied publication found
  have attempted : ∀ attempt ∈ r.attempts ++ [⟨r.checked, publication.data, publication.len, err⟩],
      ∃ publication, attempt.stored = some publication ∧ attempt.data = publication.data ∧
        attempt.len = publication.len :=
    List.forall_mem_append.mpr
      ⟨reading.copies, List.forall_mem_singleton.mpr ⟨publication, checked, rfl, rfl⟩⟩
  by_cases ok : err = espOk
  · constructor
    · simp [StreamResponse.sent, ok, checked, copied, reading.sent]
    · simp [StreamResponse.sent, ok, checked, DeliveryGhost.sentSequence, found]
    · simp
    · simp
    · exact attempted
  · constructor
    · simp [StreamResponse.sent, ok, reading.sent]
    · simpa [StreamResponse.sent, ok] using reading.last
    · simp
    · simp
    · exact attempted

end Reading

theorem gnssEvents_snoc (history : List (HttpStep workers)) (step : HttpStep workers) :
    gnssEvents (history ++ [step]) = gnssEvents history ++ gnssEvents [step] := List.flatMap_append

theorem streamResponse_snoc (index : Fin workers) (history : List (HttpStep workers)) (step : HttpStep workers) :
    streamResponse index (history ++ [step]) = (streamResponse index history).after index step := by
  rw [streamResponse, List.foldl_append]
  rfl

/-- The calls that make or store publications. -/
def stores : HttpCall workers → Bool
  | gnssStep | gnssPublicationReceive | latestStore _ => true
  | _ => false

theorem observe_gnss {t : HttpTask workers} {shared : HttpShared workers} {event : HttpEvent workers}
    (quiet : stores event.call = false) :
    (shared.observe t event).gnss = shared.gnss ∧ (shared.observe t event).latest = shared.latest := by
  obtain ⟨c, reply⟩ := event
  cases c with
  | gnssStep | gnssPublicationReceive | latestStore => cases quiet
  | requestQueueSend => cases reply <;> exact ⟨rfl, rfl⟩
  | notifyTake => cases t <;> exact ⟨rfl, rfl⟩
  | ledClientDisconnected | ledPacketConsumed =>
      rw [HttpShared.observe]
      split <;> exact ⟨rfl, rfl⟩
  | _ => exact ⟨rfl, rfl⟩

theorem gnssEvents_quiet {t : HttpTask workers} {c : HttpCall workers} {reply : c.Reply} (quiet : stores c = false) :
    gnssEvents [⟨t, ⟨c, reply⟩⟩] = [] := by
  cases c with
  | gnssStep => cases quiet
  | _ => rfl

theorem StreamResponse.after_eq {index : Fin workers} {r : StreamResponse} {t : HttpTask workers}
    {c : HttpCall workers} {reply : c.Reply} (quiet : stores c = false) :
    r.after index ⟨t, ⟨c, reply⟩⟩ = if t = .streamWorker index then r.serve ⟨c, reply⟩ else r := by
  cases c with
  | latestStore => cases quiet
  | _ => rfl

theorem StreamResponse.serve_stored (r : StreamResponse) (event : HttpEvent workers) :
    (r.serve event).stored = r.stored := by
  obtain ⟨c, reply⟩ := event
  cases c <;> rfl

/-- The tasks have carried out a broadcast. -/
def Delivered (history : List (HttpStep workers)) (shared : HttpShared workers)
    (ghosts : HttpTask workers → DeliveryGhost) (b : Broadcast (Fin workers) GnssPublication) : Prop :=
  Delivering (gnssEvents history) shared.gnss (ghosts .dispatcher).held shared.latest
    (fun index => streamResponse index history) (fun index => ghosts (.streamWorker index)) b

namespace Delivered

variable {history : List (HttpStep workers)} {shared : HttpShared workers}
  {ghosts : HttpTask workers → DeliveryGhost} {b : Broadcast (Fin workers) GnssPublication}
  {t : HttpTask workers} {c : HttpCall workers} {reply : c.Reply} {ghost : DeliveryGhost}

/-- What a step of another task adds. -/
theorem of_apart {step : HttpStep workers} {shared' : HttpShared workers}
    (apart : ∀ index, t ≠ .streamWorker index)
    (delivering : Delivering (gnssEvents history ++ gnssEvents [step]) shared'.gnss
      (Function.update ghosts t ghost .dispatcher).held shared'.latest
      (fun index => (streamResponse index history).after index step) (fun index => ghosts (.streamWorker index)) b) :
    Delivered (history ++ [step]) shared' (Function.update ghosts t ghost) b := by
  have others (index : Fin workers) : Function.update ghosts t ghost (.streamWorker index) = ghosts (.streamWorker index) :=
    Function.update_of_ne (apart index).symm _ _
  unfold Delivered
  simp only [gnssEvents_snoc, streamResponse_snoc, others]
  exact delivering

/-- Other tasks do not matter unless they store. -/
theorem other (delivered : Delivered history shared ghosts b) (quiet : stores c = false)
    (apart : ∀ index, t ≠ .streamWorker index) (held : ghost.held = (ghosts t).held) :
    Delivered (history ++ [⟨t, ⟨c, reply⟩⟩]) (shared.observe t ⟨c, reply⟩) (Function.update ghosts t ghost) b := by
  obtain ⟨gnss, latest⟩ := @observe_gnss _ t shared ⟨c, reply⟩ quiet
  have same (index : Fin workers) :
      (streamResponse index history).after index ⟨t, ⟨c, reply⟩⟩ = streamResponse index history := by
    rw [StreamResponse.after_eq quiet, if_neg (apart index)]
  have dispatcher : (Function.update ghosts t ghost .dispatcher).held = (ghosts .dispatcher).held := by
    rcases Decidable.eq_or_ne .dispatcher t with rfl | apart
    · rw [Function.update_self, held]
    · rw [Function.update_of_ne apart]
  apply of_apart apart
  simp only [gnss, latest, same, dispatcher, gnssEvents_quiet quiet, List.append_nil]
  exact delivered

/-- What a worker does moves its reader. -/
theorem worker {index : Fin workers} (delivered : Delivered history shared ghosts b)
    (reader : Reader GnssPublication) (quiet : stores c = false)
    (reads : (reader.sent ++ reader.copied.toList).Sublist b.stored)
    (reading : Reading ((streamResponse index history).serve ⟨c, reply⟩) ghost reader) :
    Delivered (history ++ [⟨.streamWorker index, ⟨c, reply⟩⟩]) (shared.observe (.streamWorker index) ⟨c, reply⟩)
      (Function.update ghosts (.streamWorker index) ghost) (b.move index reader reads) := by
  obtain ⟨gnss, latest⟩ := @observe_gnss _ (.streamWorker index) shared ⟨c, reply⟩ quiet
  have responses : (fun other => streamResponse other (history ++ [⟨.streamWorker index, ⟨c, reply⟩⟩])) =
      Function.update (fun other => streamResponse other history) index
        ((streamResponse index history).serve ⟨c, reply⟩) := by
    funext other
    rw [streamResponse_snoc, StreamResponse.after_eq quiet]
    rcases Decidable.eq_or_ne other index with rfl | apart
    · rw [Function.update_self, if_pos rfl]
    · rw [Function.update_of_ne apart, if_neg (by simpa using apart.symm)]
  have workers := Function.update_comp_eq_of_injective' ghosts streamWorker_injective index ghost
  unfold Delivered
  simp only [gnss, latest, gnssEvents_snoc, gnssEvents_quiet quiet, List.append_nil, responses]
  have moved := Delivering.move delivered reads (StreamResponse.serve_stored _ ⟨c, reply⟩) reading
  exact workers ▸ moved

theorem works {index : Fin workers} {answer : (c : HttpCall workers) → c.Reply}
    (delivered : Delivered history shared ghosts b)
    (allowed : (deliveryMonitor (.streamWorker index)).allows (ghosts (.streamWorker index)) c)
    (replied : shared.reply (.streamWorker index) answer c = some reply)
    (few : (made history).length < 2 ^ 32 - 1) :
    ∃ b', Delivered (history ++ [⟨.streamWorker index, ⟨c, reply⟩⟩]) (shared.observe (.streamWorker index) ⟨c, reply⟩)
      (Function.update ghosts (.streamWorker index)
        ((deliveryMonitor (.streamWorker index)).observe (ghosts (.streamWorker index)) ⟨c, reply⟩)) b' := by
  have reading := delivered.reading index
  cases c with
  | requestQueueReceive pool => exact ⟨_, delivered.worker ⟨none, []⟩ rfl (List.nil_sublist _) Reading.connect⟩
  | latestCopyIfNew lastSequence =>
      obtain rfl : (ghosts (.streamWorker index)).lastSequence = lastSequence := allowed.2
      have news := Delivering.news_eq delivered few index
      obtain rfl : b.news index = reply := news.trans (Option.some.inj replied)
      have known : (streamResponse index history).stored = shared.latest := delivered.known index
      refine ⟨_, delivered.worker _ rfl (b.news_sublist index) (reading.check ?_ fun nothing => ?_)⟩
      · rw [known]
        exact news
      · rw [known, ← delivered.snapshot]
        exact Broadcast.news_eq_none nothing
  | respSendChunk req data len =>
      obtain ⟨publication, found, rfl, rfl⟩ := allowed.2
      refine ⟨_, delivered.worker _ rfl ?_ (reading.send found)⟩
      have all := b.reads index
      split
      · simpa using all
      · simpa using (List.sublist_append_left _ _).trans all
  | notifyTake wait => exact ⟨_, delivered.worker _ rfl (b.reads index) reading.wait⟩
  | gnssStep | gnssPublicationReceive | latestStore => cases allowed.1
  | _ => exact ⟨_, delivered.worker _ rfl (b.reads index) reading⟩

theorem dispatches {answer : (c : HttpCall workers) → c.Reply} (delivered : Delivered history shared ghosts b)
    (allowed : (deliveryMonitor .dispatcher).allows (ghosts .dispatcher) c)
    (replied : shared.reply .dispatcher answer c = some reply) :
    ∃ b', Delivered (history ++ [⟨.dispatcher, ⟨c, reply⟩⟩]) (shared.observe .dispatcher ⟨c, reply⟩)
      (Function.update ghosts .dispatcher
        ((deliveryMonitor .dispatcher).observe (ghosts .dispatcher) ⟨c, reply⟩)) b' := by
  cases c with
  | gnssPublicationReceive =>
      obtain ⟨⟨publication, queue⟩, received, rfl⟩ := Option.map_eq_some_iff.mp replied
      refine ⟨b.take, of_apart (by simp) ?_⟩
      have taken := Delivering.receive delivered received
      simpa [HttpShared.observe, received, gnssEvents, StreamResponse.after] using taken
  | latestStore publication =>
      have stored := Delivering.store delivered allowed.2
      refine ⟨b.store, of_apart (by simp) ?_⟩
      simpa [HttpShared.observe, gnssEvents, StreamResponse.after] using stored
  | workerHandle | notifyGive => exact ⟨b, delivered.other rfl (by simp) rfl⟩
  | _ => cases allowed.1

theorem produces {answer : (c : HttpCall workers) → c.Reply} (delivered : Delivered history shared ghosts b)
    (allowed : (deliveryMonitor .gnss).allows (ghosts .gnss) c)
    (replied : shared.reply .gnss answer c = some reply) :
    ∃ b', Delivered (history ++ [⟨.gnss, ⟨c, reply⟩⟩]) (shared.observe .gnss ⟨c, reply⟩)
      (Function.update ghosts .gnss ((deliveryMonitor .gnss).observe (ghosts .gnss) ⟨c, reply⟩)) b' := by
  cases c with
  | gnssStep =>
      have stepped : (if (answer gnssStep).action = .publicationReceive then none
          else (shared.gnss.next (answer gnssStep).action).map fun stepped =>
            (⟨(answer gnssStep).action, stepped.2⟩ : GnssReply)) = some reply := replied
      split at stepped
      · cases stepped
      · rename_i other
        obtain ⟨⟨gnss, events⟩, step, rfl⟩ := Option.map_eq_some_iff.mp stepped
        obtain ⟨b', published⟩ := Delivering.publish delivered step other
        refine ⟨b', of_apart (by simp) ?_⟩
        simpa [HttpShared.observe, step, gnssEvents, StreamResponse.after] using published
  | _ => cases allowed.1

theorem bystands (delivered : Delivered history shared ghosts b) (made : t.makes c)
    (other : t = .httpd ∨ t = .writeWorker ∨ t = .led) :
    Delivered (history ++ [⟨t, ⟨c, reply⟩⟩]) (shared.observe t ⟨c, reply⟩)
      (Function.update ghosts t ((deliveryMonitor t).observe (ghosts t) ⟨c, reply⟩)) b := by
  have quiet : stores c = false := by
    cases c with
    | gnssStep | gnssPublicationReceive | latestStore => rcases other with rfl | rfl | rfl <;> cases made
    | _ => rfl
  apply delivered.other quiet
  · rintro index rfl
    simp at other
  · cases c with
    | gnssPublicationReceive | latestStore => cases quiet
    | _ => rfl

/-- What one call does. -/
theorem step {answer : (c : HttpCall workers) → c.Reply} (delivered : Delivered history shared ghosts b)
    (allowed : (deliveryMonitor t).allows (ghosts t) c) (replied : shared.reply t answer c = some reply)
    (few : (made history).length < 2 ^ 32 - 1) :
    ∃ b', Delivered (history ++ [⟨t, ⟨c, reply⟩⟩]) (shared.observe t ⟨c, reply⟩)
      (Function.update ghosts t ((deliveryMonitor t).observe (ghosts t) ⟨c, reply⟩)) b' := by
  cases t with
  | streamWorker index => exact delivered.works allowed replied few
  | dispatcher => exact delivered.dispatches allowed replied
  | gnss => exact delivered.produces allowed replied
  | httpd | writeWorker | led => exact ⟨b, delivered.bystands allowed.1 (by simp)⟩

end Delivered

theorem length_made_le (history : List (HttpStep workers)) (step : HttpStep workers) :
    (made history).length ≤ (made (history ++ [step])).length := by
  rw [made, made, gnssEvents_snoc, publicationsOf_append, List.length_append]
  exact Nat.le_add_right _ _

def deliveryOutline (workers : Nat) :
    Outline (HttpTask workers) (@HttpCall.Reply workers) HttpRound fun _ => DeliveryGhost where
  observe t := (deliveryMonitor t).observe
  allows t _ := (deliveryMonitor t).allows
  head := DeliveryHead

theorem delivered_of_exec {history s} (run : (httpSystem workers).Exec history s)
    (few : (made history).length < 2 ^ 32 - 1) :
    ∃ ghosts, (∃ b, Delivered history s.shared ghosts b) ∧
      ∀ t, (deliveryOutline workers).Keeps t (s.task t) (ghosts t) := by
  have heads (t : HttpTask workers) : (deliveryOutline workers).head t t.start ⟨none, 0, none⟩ := by
    constructor
    · cases t <;> rfl
    · intro asyncReq lastSequence starts
      cases t <;> cases starts
  have initially : Delivered [] HttpShared.initial (fun _ : HttpTask workers => ⟨none, 0, none⟩) .initial := by
    have reading : Reading ⟨none, none, []⟩ ⟨none, 0, none⟩ ⟨none, []⟩ := ⟨rfl, rfl, by simp, by simp, by simp⟩
    exact ⟨.start rfl, rfl, rfl, rfl, rfl, fun _ => rfl, fun _ => reading⟩
  obtain ⟨ghosts, delivered, keeps⟩ := Tasks.invariant_of_outline
    (I := fun history shared (ghosts : HttpTask workers → DeliveryGhost) =>
      (made history).length < 2 ^ 32 - 1 → ∃ b, Delivered history shared ghosts b)
    (fun t round ghost head => round_delivers head) heads (fun _ => ⟨_, initially⟩)
    (fun history shared ghosts t round c answer reply delivered allowed replied few => by
      have fewer := Nat.lt_of_le_of_lt (length_made_le history ⟨t, ⟨c, reply⟩⟩) few
      obtain ⟨b, delivered⟩ := delivered fewer
      exact delivered.step allowed replied fewer) run
  exact ⟨ghosts, delivered few, keeps⟩

/-- As long as the sequence numbers have not wrapped, the publications that have been sent on a
    response are publications in increasing order, each as it was made and stored last when it was
    copied; and a worker waits only when it has sent what was stored at its last check. -/
theorem publications_delivered {history s} (run : (httpSystem workers).Exec history s)
    (few : (made history).length < 2 ^ 32 - 1) (index : Fin workers) :
    Delivers (made history) (streamResponse index history) ∧
      ((s.task (.streamWorker index)).program.head? = some (notifyTake .disconnectCheck) →
        (streamResponse index history).checked = none ∨
          (streamResponse index history).sent.getLast? = (streamResponse index history).checked) := by
  obtain ⟨ghosts, ⟨b, delivered⟩, keeps⟩ := delivered_of_exec run few
  have reading := delivered.reading index
  have part : (streamResponse index history).sent.Sublist (made history) := by
    rw [made, ← delivered.made, ← reading.sent]
    exact b.sent_sublist index
  refine ⟨⟨reading.copies, part, ?_⟩, fun waits => ?_⟩
  · exact ((numbered_of_exec delivered.run).1.increasing few).sublist part
  · exact reading.nothing ((keeps (.streamWorker index)).head? waits).2

/-! A pair is uploaded and published; the worker of the first client sends it and is about to
wait for more. -/

/-- Answers under which every function succeeds and the GNSS tasks take the step `action`. -/
def HttpCall.succeeds (action : GnssAction) : (c : HttpCall workers) → c.Reply
  | requestReceive => ⟨0, .read, 0⟩
  | asyncHandlerBegin _ => ⟨espOk, 0⟩
  | asyncHandlerComplete _ => espOk
  | workerReadyTake _ | requestQueueSend _ _ => true
  | workerReadyGive _ => ()
  | requestQueueReceive _ => none
  | respSetStatus _ _ | respSetType _ _ | respSetHdr _ _ _ | respSendstr _ _ | respSendChunk _ _ _ => espOk
  | reqToSockfd _ => 0
  | recvPeek _ => ⟨1, 0⟩
  | reqRecv _ requested => ⟨0, [], List.length_nil, Int.natCast_nonneg requested⟩
  | notifyGive _ => ()
  | notifyTake _ => 0
  | workerHandle _ => true
  | latestCopyIfNew _ => none
  | latestStore _ => ()
  | gnssPublicationReceive => none
  | gnssOverrideBegin | gnssOverrideFeed _ => espOk
  | gnssOverrideEnd => ()
  | .ledTaskHandle => true
  | ledClientConnected | ledClientDisconnected | ledPacketConsumed => ()
  | ledCountersTake => ⟨0, 0⟩
  | gpioSetLevel _ => espOk
  | taskDelay _ | abort => ()
  | gnssStep => ⟨action, []⟩

def deliverySchedule : List (HttpTask 1 × GnssAction) :=
  let worker : HttpTask 1 := .streamWorker ⟨0, Nat.one_pos⟩
  (worker, .feedByte) :: List.replicate 4 (.httpd, .feedByte) ++ List.replicate 8 (worker, .feedByte) ++
    uploadSchedule.flatMap (fun action => List.replicate 2 (.gnss, action)) ++
    List.replicate 2 (.dispatcher, .feedByte) ++ List.replicate 7 (worker, .feedByte)

def deliveryRun : Option (HttpStack 1 × List (HttpStep 1)) :=
  System.replay (httpTasks 1).next ((httpTasks 1).initial .initial HttpTask.start)
    (deliverySchedule.map fun (t, action) => (t, HttpCall.succeeds action))

theorem deliveryRun_isSome : deliveryRun.isSome = true := by decide +kernel

theorem deliveryRun_exec :
    (httpSystem 1).Exec (deliveryRun.get deliveryRun_isSome).2 (deliveryRun.get deliveryRun_isSome).1 :=
  System.Exec.of_replay_isSome deliveryRun_isSome

theorem publications_delivered_once :
    (streamResponse 0 (deliveryRun.get deliveryRun_isSome).2).sent = [samplePublication] ∧
      Delivers (made (deliveryRun.get deliveryRun_isSome).2)
        (streamResponse 0 (deliveryRun.get deliveryRun_isSome).2) ∧
      ((streamResponse 0 (deliveryRun.get deliveryRun_isSome).2).checked = none ∨
        (streamResponse 0 (deliveryRun.get deliveryRun_isSome).2).sent.getLast? =
          (streamResponse 0 (deliveryRun.get deliveryRun_isSome).2).checked) := by
  have one : (made (deliveryRun.get deliveryRun_isSome).2).length = 1 := by decide +kernel
  have waits : ((deliveryRun.get deliveryRun_isSome).1.task (.streamWorker 0)).program.head? =
    some (notifyTake .disconnectCheck) := by decide +kernel
  have delivered := publications_delivered deliveryRun_exec (by rw [one]; omega) 0
  exact ⟨by decide +kernel, delivered.1, delivered.2 waits⟩

end EspGnss.Http
