import EspGnss.Foundation.Custody
import EspGnss.Http.Delivery
import EspGnss.Http.Pools

/-! # Who may answer a request

The server task answers a request itself, or queues a copy for a worker, which then answers. No
request is answered by both, answered twice, used after it has been completed, or forgotten.
-/

namespace EspGnss.Http

open Foundation HttpCall

variable {workers : Nat}

/-- What a call does with a request. -/
def requestEvent : HttpEvent workers → Option (RequestEvent HttpPool)
  | ⟨requestReceive, req⟩ => some (.received req.id)
  | ⟨asyncHandlerBegin req, begun⟩ =>
      if begun.err = espOk then some (.copied req.id begun.id) else some (.used req.id .look)
  | ⟨asyncHandlerComplete req, _⟩ => some (.completed req.id)
  | ⟨requestQueueSend pool asyncReq, sent⟩ =>
      if sent then some (.queued pool asyncReq.req.id) else some (.used asyncReq.req.id .look)
  | ⟨requestQueueReceive pool, received⟩ => received.map fun asyncReq => .dequeued pool asyncReq.req.id
  | ⟨respSetStatus req _, _⟩ | ⟨respSetType req _, _⟩ | ⟨respSetHdr req _ _, _⟩ => some (.used req.id .prepare)
  | ⟨respSendstr req _, _⟩ => some (.used req.id .whole)
  | ⟨respSendChunk req _ _, _⟩ => some (.used req.id .chunk)
  | ⟨reqToSockfd req, _⟩ => some (.used req.id .look)
  | ⟨reqRecv req _, _⟩ => some (.used req.id .read)
  | _ => none

def HttpShared.queued (shared : HttpShared workers) (pool : HttpPool) : List Nat :=
  (shared.contents pool).queue.map HttpdReq.id

/-- What a task has in its hands at the start of its rounds. -/
def HttpRound.holds : HttpRound → Hand → Prop
  | httpd, hand => hand = .nothing ∨ ∃ id, hand = .request id .answered
  | streaming asyncReq _, hand => ∃ response, hand = .request asyncReq.req.id response ∧ response ≠ .answered
  | writing asyncReq _, hand => hand = .request asyncReq.req.id .unanswered
  | _, hand => hand = .nothing

section Holds

variable {hand : Hand} {asyncReq : HttpAsyncRequest}

@[simp] theorem holds_streamReady : HttpRound.streamReady.holds hand ↔ hand = .nothing := Iff.rfl

@[simp] theorem holds_streaming {lastSequence : UInt32} : (HttpRound.streaming asyncReq lastSequence).holds hand ↔
    ∃ response, hand = .request asyncReq.req.id response ∧ response ≠ .answered := Iff.rfl

@[simp] theorem holds_writeReady : HttpRound.writeReady.holds hand ↔ hand = .nothing := Iff.rfl

@[simp] theorem holds_writing {remaining : Nat} : (HttpRound.writing asyncReq remaining).holds hand ↔
    hand = .request asyncReq.req.id .unanswered := Iff.rfl

end Holds

theorem queued_observe {task : HttpTask workers} {shared : HttpShared workers}
    {answer : (c : HttpCall workers) → c.Reply} {c : HttpCall workers} {reply : c.Reply}
    (replied : shared.reply task answer c = some reply) :
    (shared.observe task ⟨c, reply⟩).queued =
      (requestEvent ⟨c, reply⟩).elim shared.queued (·.queues shared.queued) := by
  funext pool
  have moved := (pool_observe pool replied).2
  rw [HttpShared.queued, moved]
  cases c with
  | requestQueueSend used asyncReq =>
      rcases Decidable.eq_or_ne used pool with rfl | apart
      · cases reply <;>
          simp [HttpPool.view, requestEvent, PoolContents.move, RequestEvent.queues, HttpShared.queued]
      · cases reply <;>
          simp [HttpPool.view, requestEvent, RequestEvent.queues, HttpShared.queued, apart, apart.symm]
  | requestQueueReceive used =>
      obtain ⟨received, -, rfl⟩ := Option.map_eq_some_iff.mp replied
      rcases Decidable.eq_or_ne used pool with rfl | apart
      · simp [HttpPool.view, requestEvent, PoolContents.move, RequestEvent.queues, HttpShared.queued]
      · simp [HttpPool.view, requestEvent, RequestEvent.queues, HttpShared.queued, apart, apart.symm]
  | asyncHandlerBegin req =>
      by_cases ok : reply.err = espOk <;> by_cases used : req.uri.pool = pool <;>
        simp [HttpPool.view, requestEvent, PoolContents.move, RequestEvent.queues, HttpShared.queued, ok, used]
  | asyncHandlerComplete req =>
      by_cases used : pool.completes req task <;>
        simp [HttpPool.view, requestEvent, PoolContents.move, RequestEvent.queues, HttpShared.queued, used]
  | workerReadyTake used | workerReadyGive used =>
      by_cases same : used = pool <;>
        simp [HttpPool.view, requestEvent, PoolContents.move, HttpShared.queued, same]
  | respSendstr req text =>
      by_cases refuses : pool.refuses text task <;>
        simp [HttpPool.view, requestEvent, PoolContents.move, RequestEvent.queues, HttpShared.queued, refuses]
  | _ => rfl

theorem nextId_observe (task : HttpTask workers) (shared : HttpShared workers) (event : HttpEvent workers) :
    shared.nextId ≤ (shared.observe task event).nextId := by
  obtain ⟨c, reply⟩ := event
  cases c with
  | requestReceive | asyncHandlerBegin => exact Nat.le_succ _
  | notifyTake =>
      rw [HttpShared.observe]
      cases task.notified <;> exact Nat.le_refl _
  | requestQueueSend | ledClientDisconnected | ledPacketConsumed =>
      rw [HttpShared.observe]
      split <;> exact Nat.le_refl _
  | _ => exact Nat.le_refl _

def httpCustody (workers : Nat) : Custody (httpTasks workers) HttpPool where
  view := requestEvent
  next := HttpShared.nextId
  queue := HttpShared.queued
  answers t shared answer c reply replied event seen := by
    replace replied : shared.reply t answer c = some reply := replied
    cases c with
    | requestReceive =>
        obtain rfl := Option.some.inj replied
        obtain rfl := Option.some.inj seen
        exact ⟨Nat.le_refl _, Nat.lt_succ_self _⟩
    | asyncHandlerBegin req =>
        obtain rfl := Option.some.inj replied
        rw [requestEvent] at seen
        split at seen <;> obtain rfl := Option.some.inj seen
        · exact ⟨Nat.le_refl _, Nat.lt_succ_self _⟩
        · trivial
    | requestQueueReceive pool =>
        obtain ⟨asyncReq, received, rfl⟩ := Option.map_eq_some_iff.mp seen
        subst received
        have front := (pool_observe pool replied).1 (.received asyncReq.req) (by simp [HttpPool.view])
        simpa [RequestEvent.Answers, HttpShared.queued, PoolContents.Answers] using ⟨_, front, rfl⟩
    | requestQueueSend pool asyncReq =>
        rw [requestEvent] at seen
        split at seen <;>
          obtain rfl := Option.some.inj seen <;> trivial
    | asyncHandlerComplete | respSetStatus | respSetType | respSetHdr | respSendstr | respSendChunk | reqToSockfd | reqRecv =>
        obtain rfl := Option.some.inj seen
        trivial
    | _ => cases seen
  advances t shared _ c reply _ := nextId_observe t shared ⟨c, reply⟩
  moves _ _ _ _ _ replied := queued_observe replied
  head _ := HttpRound.holds

@[simp] theorem httpCustody_view : (httpCustody workers).view = requestEvent := rfl

abbrev handMonitor : Monitor (@HttpCall.Reply workers) Hand := Hand.monitor requestEvent

theorem respondText_answers (req : HttpdReq) (status text : String) :
    (respondText req status text : HttpProgram workers Unit).Meets handMonitor
      (fun hand _ => hand = .request req.id .answered) (.request req.id .unanswered) := by
  simp [respondText, requestEvent, Hand.Permits, Hand.top, Hand.after, Response.Permits, Response.after]

/-- A handler either queues a copy or keeps the request. -/
abbrev Queues (req : HttpdReq) (program : HttpProgram workers EspErr) : Prop :=
  program.Meets handMonitor (fun hand err => hand = if err = espOk then .nothing else .request req.id .unanswered)
    (.request req.id .unanswered)

theorem begin_permits (req : HttpdReq) :
    handMonitor.allows (.request req.id .unanswered) (asyncHandlerBegin req : HttpCall workers) := by
  intro begun
  by_cases ok : begun.err = espOk <;>
    simp [requestEvent, ok, Hand.Permits, Hand.top, Response.Permits]

theorem streamRequestQueue_queues (req : HttpdReq) (contentType : String) :
    Queues req (streamRequestQueue req contentType : HttpProgram workers EspErr) := by
  have unfinished : espErrNotFinished ≠ espOk := by decide
  have failed : espFail ≠ espOk := by decide
  simp only [streamRequestQueue, Queues, CallTree.meets_bind, CallTree.meets_perform]
  refine ⟨begin_permits req, ?_⟩
  intro begun
  by_cases ok : begun.err = espOk <;>
    simp [requestEvent, ok, unfinished, failed, Hand.Permits, Hand.top, Hand.after, Response.Permits, Response.after]

theorem writeRequestQueue_queues (req : HttpdReq) :
    Queues req (writeRequestQueue req : HttpProgram workers EspErr) := by
  have unfinished : espErrNotFinished ≠ espOk := by decide
  have failed : espFail ≠ espOk := by decide
  have begins : handMonitor.allows _ (asyncHandlerBegin req : HttpCall workers) := begin_permits req
  simp [writeRequestQueue, requestEvent, unfinished] at begins ⊢
  refine ⟨begins, ?_⟩
  intro begun
  by_cases ok : begun.err = espOk <;>
    simp [ok, failed, Hand.Permits, Hand.top, Hand.after, Response.Permits, Response.after]

/-- What the handlers do with the outcome of queueing. -/
theorem answered_custody {request : HttpProgram workers EspErr} {req : HttpdReq} (queues : Queues req request)
    (status text : String) :
    (do
      let err ← request
      if err = espOk then return espOk
      respondText req status text
      return espOk).Meets handMonitor (fun hand _ => HttpRound.httpd.holds hand) (.request req.id .unanswered) := by
  rw [CallTree.meets_bind]
  apply queues.mono
  intro hand err same
  subst same
  by_cases ok : err = espOk
  · simp [ok, HttpRound.holds]
  · rw [if_neg ok, if_neg ok, CallTree.meets_bind]
    apply (respondText_answers req status text).mono
    intro hand _ answered
    exact .inr ⟨req.id, answered⟩

theorem handler_custody (req : HttpdReq) :
    (req.uri.handler req : HttpProgram workers EspErr).Meets handMonitor (fun hand _ => HttpRound.httpd.holds hand)
      (.request req.id .unanswered) := by
  cases uri : req.uri with
  | read => exact answered_custody (streamRequestQueue_queues req _) _ _
  | view => exact answered_custody (streamRequestQueue_queues req _) _ _
  | write =>
      rw [HttpUri.handler, writePostHandler]
      split
      · rw [CallTree.meets_bind]
        apply (respondText_answers req _ _).mono
        intro hand _ answered
        exact .inr ⟨req.id, answered⟩
      · exact answered_custody (writeRequestQueue_queues req) _ _

theorem httpdRound_custody {hand : Hand} (head : HttpRound.httpd.holds hand) :
    (httpdRound : HttpProgram workers HttpRound).Meets handMonitor (fun hand round => round = .httpd ∧ round.holds hand)
      hand := by
  simp only [httpdRound, CallTree.meets_bind, CallTree.meets_perform]
  constructor
  · intro req event seen
    obtain rfl := Option.some.inj seen
    exact head
  · intro req
    apply (handler_custody req).mono
    intro hand _ ends
    exact ⟨rfl, ends⟩

/-- The rounds of the workers keep to what they have in their hands. -/
abbrev KeepsHand (hand : Hand) (program : HttpProgram workers HttpRound) : Prop :=
  program.Meets handMonitor (fun hand round => round.holds hand) hand

theorem streamReadyRound_custody : KeepsHand .nothing (streamReadyRound : HttpProgram workers HttpRound) := by
  simp only [streamReadyRound, KeepsHand, CallTree.meets_bind, CallTree.meets_perform]
  refine ⟨by simp [requestEvent], fun _ => ⟨by simp [requestEvent, Hand.Permits], ?_⟩⟩
  intro received
  cases received with
  | none => simp [requestEvent]
  | some asyncReq =>
      simp [requestEvent, genericLedClientConnected, genericLedWakeTask, Hand.Permits, Hand.top,
        Hand.after, Response.Permits, Response.after]

theorem streamFinish_custody (asyncReq : HttpAsyncRequest) (response : Response) :
    KeepsHand (.request asyncReq.req.id response) (streamFinish asyncReq : HttpProgram workers HttpRound) := by
  simp [streamFinish, requestEvent, genericLedClientDisconnected, genericLedWakeTask, Hand.Permits,
    Hand.top, Hand.after]

theorem streamingRound_custody (asyncReq : HttpAsyncRequest) (lastSequence : UInt32) {response : Response}
    (unfinished : response ≠ .answered) :
    KeepsHand (.request asyncReq.req.id response)
      (streamingRound asyncReq lastSequence : HttpProgram workers HttpRound) := by
  have finishes (response) : KeepsHand _ (streamFinish asyncReq : HttpProgram workers HttpRound) :=
    streamFinish_custody asyncReq response
  simp only [streamingRound, KeepsHand, CallTree.meets_bind, CallTree.meets_perform]
  refine ⟨by simp [requestEvent], ?_⟩
  intro copied
  cases copied with
  | none => simp [requestEvent, streamClientIsConnected, finishes, unfinished, Hand.Permits, Hand.top, Hand.after]
  | some publication =>
      simp [requestEvent, genericLedPacketConsumed, genericLedWakeTask, finishes, unfinished, Hand.Permits, Hand.top,
        Hand.after]

theorem writeReadyRound_custody : KeepsHand .nothing (writeReadyRound : HttpProgram workers HttpRound) := by
  simp only [writeReadyRound, KeepsHand, CallTree.meets_bind, CallTree.meets_perform]
  refine ⟨by simp [requestEvent], fun _ => ⟨by simp [requestEvent, Hand.Permits], ?_⟩⟩
  intro received
  cases received with
  | none => simp [requestEvent]
  | some asyncReq =>
      simp [requestEvent, respondText, writeFinish, Hand.Permits, Hand.top,
        Hand.after, Response.Permits, Response.after]

theorem writeEnd_custody (asyncReq : HttpAsyncRequest) (result : EspErr) :
    KeepsHand (.request asyncReq.req.id .unanswered) (writeEnd asyncReq result : HttpProgram workers HttpRound) := by
  simp [writeEnd, writeFinish, requestEvent, Hand.Permits, Hand.top, Hand.after, Response.Permits,
    Response.after]

theorem writingRound_custody (asyncReq : HttpAsyncRequest) (remaining : Nat) :
    KeepsHand (.request asyncReq.req.id .unanswered) (writingRound asyncReq remaining : HttpProgram workers HttpRound) := by
  have ends (result) : KeepsHand _ (writeEnd asyncReq result : HttpProgram workers HttpRound) :=
    writeEnd_custody asyncReq result
  simp [writingRound, requestEvent, ends, Hand.Permits, Hand.top, Hand.after, Response.Permits,
    Response.after]

/-- The other tasks use no requests. -/
theorem requestEvent_none {t : HttpTask workers} (other : t = .dispatcher ∨ t = .led ∨ t = .gnss)
    {c : HttpCall workers} (makes : t.makes c) (reply : c.Reply) : requestEvent ⟨c, reply⟩ = none := by
  rcases other with rfl | rfl | rfl <;> cases c <;> first | rfl | cases makes

theorem other_custody {t : HttpTask workers} (other : t = .dispatcher ∨ t = .led ∨ t = .gnss) {round : HttpRound}
    (runs : t.runs round) : KeepsHand .nothing (round.program : HttpProgram workers HttpRound) := by
  apply (CallTree.Meets.of_calls (I := (· = .nothing)) _ (program_makes runs) rfl).mono
  · rintro hand round ⟨rfl, runs⟩
    rcases other with rfl | rfl | rfl <;> cases round <;> first | rfl | cases runs
  · rintro hand c rfl makes
    have unseen (reply) := requestEvent_none other makes reply
    simp [unseen]

theorem program_custody {round : HttpRound} {hand : Hand} (holds : round.holds hand) :
    KeepsHand hand (round.program : HttpProgram workers HttpRound) := by
  cases round with
  | httpd =>
      apply (httpdRound_custody holds).mono
      intro hand round ends
      exact ends.2
  | streamReady =>
      obtain rfl : hand = .nothing := holds
      exact streamReadyRound_custody
  | streaming asyncReq lastSequence =>
      obtain ⟨response, rfl, unfinished⟩ := holds
      exact streamingRound_custody asyncReq lastSequence unfinished
  | writeReady =>
      obtain rfl : hand = .nothing := holds
      exact writeReadyRound_custody
  | writing asyncReq remaining =>
      obtain rfl : hand = .request asyncReq.req.id .unanswered := holds
      exact writingRound_custody asyncReq remaining
  | dispatching =>
      obtain rfl : hand = .nothing := holds
      exact other_custody (.inl rfl) rfl
  | blinking | indicating =>
      obtain rfl : hand = .nothing := holds
      exact other_custody (.inr (.inl rfl)) rfl
  | gnss =>
      obtain rfl : hand = .nothing := holds
      exact other_custody (.inr (.inr rfl)) rfl

theorem http_obeyed : (httpCustody workers).Obeyed .initial HttpTask.start where
  bodies _ _ _ := program_custody
  heads t := by cases t <;> first | rfl | exact .inl rfl
  empty pool := rfl

theorem requests_in_hand {history s} (run : (httpSystem workers).Exec history s) :
    (httpCustody workers).Orderly history s.shared :=
  Custody.orderly_of_exec http_obeyed run

/-! Two clients, but only one worker. -/

def busyRun : Option (HttpStack 1 × List (HttpStep 1)) :=
  let worker : HttpTask 1 := .streamWorker ⟨0, Nat.one_pos⟩
  System.replay (httpTasks 1).next ((httpTasks 1).initial .initial HttpTask.start)
    ((worker :: List.replicate 12 .httpd ++ List.replicate 6 worker).map fun t => (t, HttpCall.succeeds .feedByte))

theorem busyRun_isSome : busyRun.isSome = true := by decide +kernel

theorem busyRun_exec : (httpSystem 1).Exec (busyRun.get busyRun_isSome).2 (busyRun.get busyRun_isSome).1 :=
  System.Exec.of_replay_isSome busyRun_isSome

theorem busy_requests_in_hand :
    ((List.range 4).map ((httpCustody 1).places (busyRun.get busyRun_isSome).2) =
      [.gone, .held (.streamWorker ⟨0, Nat.one_pos⟩) .unanswered, .held .httpd .answered, .gone]) ∧
        (httpCustody 1).Orderly (busyRun.get busyRun_isSome).2 (busyRun.get busyRun_isSome).1.shared :=
  ⟨by decide +kernel, requests_in_hand busyRun_exec⟩

end EspGnss.Http
