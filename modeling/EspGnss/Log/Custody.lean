import EspGnss.Foundation.Custody
import EspGnss.Log.Pool
import EspGnss.Log.Response

/-! # Who may answer a `/log` request -/

namespace EspGnss.Log

open Foundation LogCall

/-- What a call does with a request; there is one queue. -/
def requestEvent : LogEvent → Option (RequestEvent Unit)
  | ⟨requestReceive, req⟩ => some (.received req.id)
  | ⟨asyncHandlerBegin req, begun⟩ =>
      if begun.err = espOk then some (.copied req.id begun.id) else some (.used req.id .look)
  | ⟨asyncHandlerComplete req, _⟩ => some (.completed req.id)
  | ⟨requestQueueSend asyncReq, sent⟩ =>
      if sent then some (.queued () asyncReq.req.id) else some (.used asyncReq.req.id .look)
  | ⟨requestQueueReceive, received⟩ => received.map fun asyncReq => .dequeued () asyncReq.req.id
  | ⟨respSetStatus req _, _⟩ | ⟨respSetType req _, _⟩ | ⟨respSetHdr req _ _, _⟩ => some (.used req.id .prepare)
  | ⟨respSendstr req _, _⟩ => some (.used req.id .whole)
  | ⟨respSendChunk req _, _⟩ => some (.used req.id .chunk)
  | ⟨reqToSockfd req, _⟩ => some (.used req.id .look)
  | _ => none

def LogShared.queued (shared : LogShared) (_ : Unit) : List Nat := shared.contents.queue.map LogReq.id

/-- What a task has in its hands at the start of its rounds. -/
def LogRound.holds : LogRound → Hand → Prop
  | httpd, hand => hand = .nothing ∨ ∃ id, hand = .request id .answered
  | sending asyncReq _, hand => ∃ response, hand = .request asyncReq.req.id response ∧ response ≠ .answered
  | ready, hand | logging, hand => hand = .nothing

section Holds

variable {hand : Hand} {asyncReq : LogAsyncRequest}

@[simp] theorem holds_ready : LogRound.ready.holds hand ↔ hand = .nothing := Iff.rfl

@[simp] theorem holds_sending {lastSent : UInt32} : (LogRound.sending asyncReq lastSent).holds hand ↔
    ∃ response, hand = .request asyncReq.req.id response ∧ response ≠ .answered := Iff.rfl

@[simp] theorem holds_logging : LogRound.logging.holds hand ↔ hand = .nothing := Iff.rfl

end Holds

theorem queued_observe {shared : LogShared} {answer : (c : LogCall) → c.Reply} {c : LogCall} {reply : c.Reply}
    (replied : shared.reply answer c = some reply) :
    (shared.observe ⟨c, reply⟩).queued = (requestEvent ⟨c, reply⟩).elim shared.queued (·.queues shared.queued) := by
  funext queue
  have moved := (pool_observe replied).2
  rw [LogShared.queued, moved]
  cases c with
  | requestQueueSend asyncReq =>
      cases reply <;> simp [poolView, requestEvent, PoolContents.move, RequestEvent.queues, LogShared.queued]
  | requestQueueReceive =>
      obtain ⟨received, -, rfl⟩ := Option.map_eq_some_iff.mp replied
      simp [poolView, requestEvent, PoolContents.move, RequestEvent.queues, LogShared.queued]
  | asyncHandlerBegin req =>
      by_cases ok : reply.err = espOk <;>
        simp [poolView, requestEvent, PoolContents.move, RequestEvent.queues, LogShared.queued, ok]
  | respSendstr req text =>
      by_cases refuses : text = logRefusal <;>
        simp [poolView, requestEvent, PoolContents.move, RequestEvent.queues, LogShared.queued, refuses]
  | _ => rfl

theorem nextId_observe (shared : LogShared) (event : LogEvent) : shared.nextId ≤ (shared.observe event).nextId := by
  obtain ⟨c, reply⟩ := event
  cases c with
  | requestReceive | asyncHandlerBegin => exact Nat.le_succ _
  | requestQueueSend =>
      rw [LogShared.observe]
      split <;> exact Nat.le_refl _
  | _ => exact Nat.le_refl _

def logCustody : Custody logTasks Unit where
  view := requestEvent
  next := LogShared.nextId
  queue := LogShared.queued
  answers _ shared answer c reply replied event seen := by
    replace replied : shared.reply answer c = some reply := replied
    cases c with
    | requestReceive =>
        obtain rfl := Option.some.inj replied
        obtain rfl := Option.some.inj seen
        exact ⟨Nat.le_refl _, Nat.lt_succ_self _⟩
    | asyncHandlerBegin req =>
        obtain rfl := Option.some.inj replied
        rw [requestEvent] at seen
        split at seen <;> obtain rfl := Option.some.inj seen
        · exact ⟨Nat.le_refl _, Nat.lt_succ_self _⟩
        · trivial
    | requestQueueReceive =>
        obtain ⟨asyncReq, received, rfl⟩ := Option.map_eq_some_iff.mp seen
        subst received
        have front := (pool_observe replied).1 (.received asyncReq.req) (by simp [poolView])
        simpa [RequestEvent.Answers, LogShared.queued, PoolContents.Answers] using ⟨_, front, rfl⟩
    | requestQueueSend asyncReq =>
        rw [requestEvent] at seen
        split at seen <;>
          obtain rfl := Option.some.inj seen <;> trivial
    | asyncHandlerComplete | respSetStatus | respSetType | respSetHdr | respSendstr | respSendChunk | reqToSockfd =>
        obtain rfl := Option.some.inj seen
        trivial
    | _ => cases seen
  advances _ shared _ c reply _ := nextId_observe shared ⟨c, reply⟩
  moves _ _ _ _ _ replied := queued_observe replied
  head _ := LogRound.holds

abbrev handMonitor : Monitor LogCall.Reply Hand := Hand.monitor requestEvent

/-- The handler either queues a copy or keeps the request. -/
theorem logRequestQueue_queues (req : LogReq) :
    (logRequestQueue req).Meets handMonitor
      (fun hand err => hand = if err = espOk then .nothing else .request req.id .unanswered)
      (.request req.id .unanswered) := by
  have unfinished : espErrNotFinished ≠ espOk := by decide
  have failed : espFail ≠ espOk := by decide
  simp [logRequestQueue, requestEvent, unfinished]
  constructor
  · intro begun event
    by_cases ok : begun.err = espOk <;> simp [ok]
    · rintro rfl
      simp [Hand.Permits]
    · rintro rfl
      simp [Hand.Permits, Hand.top]
  · intro begun
    by_cases ok : begun.err = espOk <;>
      simp [ok, failed, Hand.Permits, Hand.top, Hand.after]

theorem httpdRound_custody {hand : Hand} (head : LogRound.httpd.holds hand) :
    httpdRound.Meets handMonitor (fun hand round => round.holds hand) hand := by
  simp only [httpdRound, logGetHandler, CallTree.meets_bind, CallTree.meets_perform]
  constructor
  · intro req event seen
    obtain rfl := Option.some.inj seen
    exact head
  · intro req
    apply (logRequestQueue_queues req).mono
    intro hand err same
    subst same
    by_cases ok : err = espOk <;>
      simp [ok, requestEvent, LogRound.holds, Hand.Permits, Hand.top, Hand.after, Response.Permits, Response.after]

/-- Capturing a line uses no request. -/
theorem espLog_custody {post : Hand → Unit → Prop} {hand : Hand} (ends : post hand ()) :
    espLog.Meets handMonitor post hand := by
  simp [espLog, logCaptureVprintf, requestEvent, ends]

abbrev KeepsHand (hand : Hand) (program : LogProgram LogRound) : Prop :=
  program.Meets handMonitor (fun hand round => round.holds hand) hand

theorem readyRound_custody : KeepsHand .nothing readyRound := by
  simp only [readyRound, KeepsHand, CallTree.meets_bind, CallTree.meets_perform]
  refine ⟨by simp [requestEvent], fun _ => ⟨by simp [requestEvent, Hand.Permits], ?_⟩⟩
  intro received
  cases received with
  | none => simp [requestEvent]
  | some asyncReq =>
      rw [CallTree.meets_bind]
      apply espLog_custody
      simp [requestEvent, Hand.Permits, Hand.top, Hand.after, Response.Permits, Response.after]

theorem logFinish_custody (asyncReq : LogAsyncRequest) (response : Response) :
    KeepsHand (.request asyncReq.req.id response) (logFinish asyncReq) := by
  rw [logFinish, KeepsHand, CallTree.meets_bind]
  apply espLog_custody
  simp [requestEvent, Hand.Permits, Hand.top, Hand.after]
  intro err _
  exact espLog_custody rfl

theorem sendingRound_custody (asyncReq : LogAsyncRequest) (lastSent : UInt32) {response : Response}
    (unfinished : response ≠ .answered) :
    KeepsHand (.request asyncReq.req.id response) (sendingRound asyncReq lastSent) := by
  have finishes (response) := logFinish_custody asyncReq response
  simp [sendingRound, requestEvent, logClientIsConnected, finishes, unfinished, Hand.Permits, Hand.top, Hand.after]

theorem loggingRound_custody : KeepsHand .nothing loggingRound := by
  simp [loggingRound, logCaptureVprintf, requestEvent]

theorem program_custody {round : LogRound} {hand : Hand} (holds : round.holds hand) :
    KeepsHand hand round.program := by
  cases round with
  | httpd => exact httpdRound_custody holds
  | ready =>
      obtain rfl : hand = .nothing := holds
      exact readyRound_custody
  | sending asyncReq lastSent =>
      obtain ⟨response, rfl, unfinished⟩ := holds
      exact sendingRound_custody asyncReq lastSent unfinished
  | logging =>
      obtain rfl : hand = .nothing := holds
      exact loggingRound_custody

theorem log_obeyed (early : List (List UInt8)) : logCustody.Obeyed (.initial early) LogTask.start where
  bodies _ _ _ := program_custody
  heads t := by
    cases t with
    | httpd => exact .inl rfl
    | worker | logger => rfl
  empty _ := rfl

theorem log_requests_in_hand {early : List (List UInt8)} {history s} (run : (logSystem early).Exec history s) :
    logCustody.Orderly history s.shared :=
  Custody.orderly_of_exec (log_obeyed early) run

theorem tail_requests_in_hand :
    logCustody.places (tailRun.get tailRun_isSome).2 1 = .held .worker .streaming ∧
      logCustody.Orderly (tailRun.get tailRun_isSome).2 (tailRun.get tailRun_isSome).1.shared :=
  ⟨by decide +kernel, log_requests_in_hand (System.Exec.of_replay_isSome tailRun_isSome)⟩

end EspGnss.Log
