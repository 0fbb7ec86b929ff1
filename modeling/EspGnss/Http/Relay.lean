import EspGnss.Gnss.Relay
import EspGnss.Http.Snapshot

/-! # From the receiver to the client

What a client receives are whole publications, each a pair of lines that the device
received. A parser that is fed the response gets these pairs back, in any pieces and
whatever it held before.
-/

namespace EspGnss.Http

open Foundation Gnss Nmea HttpCall

variable {workers : Nat}

namespace StreamResponse

/-- The calls that were successful. -/
def delivered (r : StreamResponse) : List SendAttempt := r.attempts.filter (·.err = espOk)

/-- What the client has received of the body. -/
def body (r : StreamResponse) : List UInt8 := r.delivered.flatMap fun attempt => attempt.data.take attempt.len.toNat

end StreamResponse

/-- This data has been published. -/
def IsMade (history : List (HttpStep workers)) (data : List UInt8) (len : UInt16) : Prop :=
  ∃ publication ∈ made history, data = publication.data ∧ len = publication.len

theorem IsMade.extend {history : List (HttpStep workers)} {data : List UInt8} {len : UInt16}
    (isMade : IsMade history data len) (step : HttpStep workers) : IsMade (history ++ [step]) data len := by
  obtain ⟨publication, member, same⟩ := isMade
  refine ⟨publication, ?_, same⟩
  rw [made, gnssEvents_snoc, publicationsOf_append]
  exact List.mem_append_left _ member

/-- A call adds at most the attempt that it is. -/
theorem StreamResponse.attempts_after {index : Fin workers} {r : StreamResponse} {t : HttpTask workers}
    {c : HttpCall workers} {reply : c.Reply} {attempt : SendAttempt}
    (member : attempt ∈ (r.after index ⟨t, ⟨c, reply⟩⟩).attempts) :
    attempt ∈ r.attempts ∨ t = .streamWorker index ∧ ∃ req, c = respSendChunk req attempt.data attempt.len := by
  cases c with
  | latestStore => exact .inl member
  | respSendChunk req data len =>
      rw [StreamResponse.after_eq rfl] at member
      split at member
      · rename_i same
        rcases List.mem_append.mp member with before | now
        · exact .inl before
        · cases List.mem_singleton.mp now
          exact .inr ⟨same, req, rfl⟩
      · exact .inl member
  | requestQueueReceive =>
      rw [StreamResponse.after_eq rfl] at member
      split at member
      · cases member
      · exact .inl member
  | _ =>
      simp only [StreamResponse.after, StreamResponse.serve] at member
      split at member <;> exact .inl member

/-- What a worker has copied has been published, and so has all that it tried to send. -/
structure Relays (history : List (HttpStep workers)) (ghosts : HttpTask workers → SnapshotGhost) : Prop where
  copied : ∀ index, ∀ publication ∈ (ghosts (.streamWorker index)).copied, publication ∈ made history
  attempts : ∀ index, ∀ attempt ∈ (streamResponse index history).attempts, IsMade history attempt.data attempt.len

theorem Relays.step {history : List (HttpStep workers)} {shared : HttpShared workers}
    {ghosts : HttpTask workers → SnapshotGhost} {t : HttpTask workers} {c : HttpCall workers} {reply : c.Reply}
    {answer : (c : HttpCall workers) → c.Reply} (relays : Relays history ghosts)
    (published : Published (gnssEvents history) shared.gnss (ghosts .dispatcher).held shared.latest)
    (allowed : (snapshotMonitor t).allows (ghosts t) c) (replied : shared.reply t answer c = some reply) :
    Relays (history ++ [⟨t, ⟨c, reply⟩⟩])
      (Function.update ghosts t ((snapshotMonitor t).observe (ghosts t) ⟨c, reply⟩)) := by
  have grown {publication : GnssPublication} (member : publication ∈ made history) :
      publication ∈ made (history ++ [⟨t, ⟨c, reply⟩⟩]) := by
    rw [made, gnssEvents_snoc, publicationsOf_append]
    exact List.mem_append_left _ member
  constructor
  · intro index publication copied
    rcases Decidable.eq_or_ne (.streamWorker index) t with rfl | apart
    · rw [Function.update_self] at copied
      apply grown
      cases c with
      | latestCopyIfNew lastSequence =>
          obtain rfl : shared.latest.filter (·.sequence ≠ lastSequence) = reply := Option.some.inj replied
          have copied : shared.latest.filter (·.sequence ≠ lastSequence) = some publication := copied
          exact published.latest publication (Option.filter_eq_some_iff.mp copied).1
      | respSendChunk => cases copied
      | _ => exact relays.copied index publication copied
    · rw [Function.update_of_ne apart] at copied
      exact grown (relays.copied index publication copied)
  · intro index attempt member
    rw [streamResponse_snoc] at member
    rcases StreamResponse.attempts_after member with before | ⟨rfl, req, rfl⟩
    · exact (relays.attempts index attempt before).extend _
    · obtain ⟨publication, copied⟩ := Option.isSome_iff_exists.mp allowed.2.2
      obtain ⟨req', same⟩ := allowed.2.1 publication copied
      obtain ⟨-, data, len⟩ := HttpCall.respSendChunk.inj same
      exact ⟨publication, grown (relays.copied index publication copied), data, len⟩

theorem relays_of_exec {history s} (run : (httpSystem workers).Exec history s) :
    gnssSystem.Exec (gnssEvents history) s.shared.gnss ∧ ∃ ghosts, Relays history ghosts := by
  have heads (t : HttpTask workers) : (snapshotOutline workers).head t t.start ⟨none, false, none⟩ := by
    refine ⟨by cases t <;> rfl, rfl, ?_⟩
    intro asyncReq lastSequence starts
    cases t <;> cases starts
  have published : Published (gnssEvents ([] : List (HttpStep workers))) (HttpShared.initial : HttpShared workers).gnss none
      (HttpShared.initial : HttpShared workers).latest :=
    ⟨.start rfl, by simp [HttpShared.initial, GnssStack.initial, BoundedQueue.empty], by simp, by simp [HttpShared.initial]⟩
  have relays : Relays [] fun _ : HttpTask workers => ⟨none, false, none⟩ := by
    constructor
    · intro t publication copied
      cases copied
    · intro index attempt attempted
      cases attempted
  have kept : ∃ ghosts : HttpTask workers → SnapshotGhost,
      (Published (gnssEvents history) s.shared.gnss (ghosts .dispatcher).held s.shared.latest ∧
        Relays history ghosts) ∧ ∀ t, (snapshotOutline workers).Keeps t (s.task t) (ghosts t) :=
    Tasks.invariant_of_outline
      (I := fun history (shared : HttpShared workers) (ghosts : HttpTask workers → SnapshotGhost) =>
        Published (gnssEvents history) shared.gnss (ghosts .dispatcher).held shared.latest ∧ Relays history ghosts)
      (fun _ _ _ head => round_snapshot head) heads ⟨published, relays⟩
      (fun _ _ _ _ _ _ _ _ holds allowed replied =>
        ⟨holds.1.step allowed replied, holds.2.step holds.1 allowed replied⟩) run
  obtain ⟨ghosts, ⟨published, relays⟩, -⟩ := kept
  exact ⟨published.run, ghosts, relays⟩

/-- This chunk is a pair that the device received: a publication of these two lines, both fed
    by one source during one session. -/
def Relayed (history : List (HttpStep workers)) (attempt : SendAttempt) (c : Candidate) : Prop :=
  ∃ publication ∈ made history, attempt.data = publication.data ∧ attempt.len = publication.len ∧
    GenuinePublication (gnssEvents history) publication c

theorem relayed_of_exec {history s} (run : (httpSystem workers).Exec history s) (index : Fin workers) :
    ∀ attempt ∈ (streamResponse index history).attempts,
      ∃ c, Relayed history attempt c ∧ PairKind c.gga c.rmc c.hdopMilli := by
  obtain ⟨gnss, ghosts, relays⟩ := relays_of_exec run
  intro attempt member
  obtain ⟨publication, isMade, data, len⟩ := relays.attempts index attempt member
  obtain ⟨c, published⟩ : ∃ c, .published c publication ∈ gnssEvents history := by
    obtain ⟨event, happened, same⟩ := List.mem_filterMap.mp isMade
    cases event with
    | published c publication' =>
        cases same
        exact ⟨c, happened⟩
    | _ => cases same
  have genuine := genuinePublication_of_exec gnss c publication published
  exact ⟨c, ⟨publication, isMade, data, len, genuine⟩, published_kind gnss c publication published⟩

theorem Relayed.take_eq {history : List (HttpStep workers)} {attempt : SendAttempt} {c : Candidate}
    (relayed : Relayed history attempt c) : attempt.data.take attempt.len.toNat = c.gga ++ c.rmc := by
  obtain ⟨publication, -, data, len, genuine⟩ := relayed
  rw [data, len, genuine.len, List.take_length, genuine.data]

/-- The pairs of chunks, one by one. -/
theorem exists_pairs {history : List (HttpStep workers)} {attempts : List SendAttempt}
    (all : ∀ attempt ∈ attempts, ∃ c, Relayed history attempt c ∧ PairKind c.gga c.rmc c.hdopMilli) :
    ∃ candidates, List.Forall₂ (Relayed history) attempts candidates ∧
      (∀ c ∈ candidates, (lineFraming.IsFrame c.gga ∧ lineFraming.IsFrame c.rmc) ∧ PairKind c.gga c.rmc c.hdopMilli) ∧
      (attempts.flatMap fun attempt => attempt.data.take attempt.len.toNat) =
        candidates.flatMap fun c => c.gga ++ c.rmc := by
  induction attempts with
  | nil => exact ⟨[], .nil, nofun, rfl⟩
  | cons attempt rest ih =>
      obtain ⟨c, relayed, kind⟩ := all attempt List.mem_cons_self
      obtain ⟨candidates, pairs, known, bytes⟩ := ih fun later member => all later (List.mem_cons_of_mem _ member)
      obtain ⟨publication, -, -, -, genuine⟩ := id relayed
      refine ⟨c :: candidates, .cons relayed pairs, ?_, ?_⟩
      · intro other member
        rcases List.mem_cons.mp member with rfl | later
        · exact ⟨⟨genuine.genuine.isGga.1.1, genuine.genuine.isRmc.1.1⟩, kind⟩
        · exact known other later
      · rw [List.flatMap_cons, List.flatMap_cons, relayed.take_eq, bytes]

/-- What the parser of the client makes of a candidate. -/
def clientCandidate (inputEpoch : UInt32) (c : Candidate) : GnssCandidate := { c.toGnssCandidate with inputEpoch }

/-- A parser that is fed a response gets exactly the pairs of its chunks, in their order, each a
    pair that the device received. It does not matter how the response is cut into pieces and
    what the parser held before, nor whether it is the parser of another device that the response
    is uploaded to. -/
theorem responses_parsed {history s} (run : (httpSystem workers).Exec history s) (index : Fin workers)
    (inputEpoch : UInt32) (client : NmeaParserState) (fits : client.Fits) (pieces : List (List UInt8))
    (cut : pieces.flatten = (streamResponse index history).body) :
    ∃ candidates, List.Forall₂ (Relayed history) (streamResponse index history).delivered candidates ∧
      (∃ after, nmeaParserFeedCalls inputEpoch client pieces =
        some (after, candidates.map (clientCandidate inputEpoch))) ∧
      ∃ after, overrideFeedCalls ⟨client, true, false, inputEpoch⟩ pieces =
        some (after, candidates.map (clientCandidate inputEpoch)) := by
  have all : ∀ attempt ∈ (streamResponse index history).delivered,
      ∃ c, Relayed history attempt c ∧ PairKind c.gga c.rmc c.hdopMilli :=
    fun attempt member => relayed_of_exec run index attempt (List.mem_of_mem_filter member)
  obtain ⟨candidates, pairs, known, bytes⟩ := exists_pairs all
  have emitted : (client.feedAll inputEpoch pieces.flatten).2 = candidates.map (clientCandidate inputEpoch) := by
    have fed := feedAll_pairs inputEpoch client (candidates.map Candidate.toGnssCandidate)
      (by simpa using fun c member => (known c member).1) (by simpa using fun c member => (known c member).2)
    rw [List.flatMap_map, List.map_map, ← bytes] at fed
    rw [cut]
    exact fed
  refine ⟨candidates, pairs, ?_, ?_⟩
  · have feeds := nmeaParserFeedCalls_spec inputEpoch fits pieces
    exact ⟨(client.feedAll inputEpoch pieces.flatten).1, by rw [feeds, ← emitted]⟩
  · have feeds := @overrideFeedCalls_spec ⟨client, true, false, inputEpoch⟩ fits rfl rfl pieces
    rw [emitted] at feeds
    exact ⟨_, feeds⟩

/-- The response of a short run, cut after its first five bytes, for a parser that is in the
    middle of a line. -/
theorem relayed_response_parsed :
    let response := streamResponse 0 (deliveryRun.get deliveryRun_isSome).2
    response.body = sampleGga ++ sampleRmc ∧
    ∃ candidates, List.Forall₂ (Relayed (deliveryRun.get deliveryRun_isSome).2) response.delivered candidates ∧
      (∃ after, nmeaParserFeedCalls 7 ⟨true, [dollar, 71], false, [], 0⟩ [response.body.take 5, response.body.drop 5] =
        some (after, candidates.map (clientCandidate 7))) ∧
      ∃ after, overrideFeedCalls ⟨⟨true, [dollar, 71], false, [], 0⟩, true, false, 7⟩
        [response.body.take 5, response.body.drop 5] = some (after, candidates.map (clientCandidate 7)) := by
  intro response
  have fits : (⟨true, [dollar, 71], false, [], 0⟩ : NmeaParserState).Fits := by
    constructor <;> decide
  exact ⟨by decide +kernel, responses_parsed deliveryRun_exec 0 7 _ fits
    [response.body.take 5, response.body.drop 5] (by simp [response])⟩

end EspGnss.Http
