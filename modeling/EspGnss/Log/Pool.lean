import EspGnss.Log.Stack

/-! # The worker pool of `/log`

Its pool has one worker; the handler takes the token before it clones the request.
-/

namespace EspGnss.Log

open Foundation LogCall

/-- What the handler answers a request that has not been queued. -/
def logRefusal : String := "a /log client is already connected\n"

/-- What a call is for the pool. -/
@[simp] def poolView : LogEvent → Option (PoolEvent LogReq)
  | ⟨workerReadyTake, taken⟩ => some (.took taken)
  | ⟨workerReadyGive, _⟩ => some .gave
  | ⟨requestQueueSend asyncReq, sent⟩ => some (.sent asyncReq.req sent)
  | ⟨requestQueueReceive, received⟩ => some (received.elim .timedOut fun asyncReq => .received asyncReq.req)
  | ⟨asyncHandlerBegin _, begun⟩ => some (if begun.err = espOk then .cloned ⟨begun.id⟩ else .uncloned)
  | ⟨asyncHandlerComplete req, _⟩ => some (.completed req)
  | ⟨respSendstr _ text, _⟩ => if text = logRefusal then some .refused else none
  | _ => none

def LogShared.contents (shared : LogShared) : PoolContents LogReq :=
  shared.pool.contents LogAsyncRequest.req

/-- The objects of the pool answer and move as the abstract pool does. -/
theorem pool_observe {shared : LogShared} {answer : (c : LogCall) → c.Reply} {c : LogCall} {reply : c.Reply}
    (replied : shared.reply answer c = some reply) :
    (∀ event ∈ poolView ⟨c, reply⟩, shared.contents.Answers 1 event) ∧
      (shared.observe ⟨c, reply⟩).contents =
        (poolView ⟨c, reply⟩).elim shared.contents (shared.contents.move 1) := by
  cases c with
  | workerReadyTake =>
      obtain rfl := Option.some.inj replied
      constructor
      · simp [poolView, PoolContents.Answers]
        rfl
      · rfl
  | workerReadyGive => exact ⟨by simp [poolView, PoolContents.Answers], rfl⟩
  | requestQueueSend asyncReq =>
      obtain rfl := Option.some.inj replied
      constructor
      · simp [poolView, PoolContents.Answers, LogShared.contents, PoolObjects.contents]
      · by_cases room : shared.pool.queue.items.length < 1
        · have sent : (shared.pool.send asyncReq).contents LogAsyncRequest.req = _ :=
            PoolObjects.contents_send LogAsyncRequest.req room
          simpa [poolView, LogShared.observe, LogShared.contents, room] using sent
        · simp [poolView, LogShared.observe, room, PoolContents.move]
  | requestQueueReceive =>
      obtain ⟨⟨asyncReq, queue⟩, received, rfl⟩ := Option.map_eq_some_iff.mp replied
      obtain ⟨front, rest⟩ := PoolObjects.contents_receive LogAsyncRequest.req received
      constructor
      · simpa [poolView, PoolContents.Answers, LogShared.contents] using front
      · simpa [poolView, LogShared.observe, LogShared.contents] using rest
  | asyncHandlerBegin req =>
      by_cases begun : reply.err = espOk
      · rw [poolView, if_pos begun]
        exact ⟨by simp [PoolContents.Answers], rfl⟩
      · rw [poolView, if_neg begun]
        exact ⟨by simp [PoolContents.Answers], rfl⟩
  | respSendstr req text =>
      rw [poolView]
      split
      · exact ⟨by simp [PoolContents.Answers], rfl⟩
      · exact ⟨by simp, rfl⟩
  | asyncHandlerComplete req => exact ⟨by simp [poolView, PoolContents.Answers], rfl⟩
  | _ => exact ⟨by simp [poolView], rfl⟩

def LogTask.party : LogTask → Option (PoolParty 1)
  | httpd => some .handler
  | worker => some (.worker ⟨0, Nat.one_pos⟩)
  | logger _ => none

/-- Where the worker is at the start of its rounds. -/
def workerHead : LogRound → PoolWorker LogReq → Prop
  | .ready, worker => worker = .starting ∨ worker = .finished
  | .sending asyncReq _, worker => worker = .serving asyncReq.req
  | .httpd, _ | .logging, _ => False

@[simp] theorem workerHead_ready {worker : PoolWorker LogReq} :
    workerHead .ready worker ↔ worker = .starting ∨ worker = .finished := Iff.rfl

@[simp] theorem workerHead_sending {worker : PoolWorker LogReq} {asyncReq : LogAsyncRequest} {lastSent : UInt32} :
    workerHead (.sending asyncReq lastSent) worker ↔ worker = .serving asyncReq.req := Iff.rfl

def logPool : PooledTasks logTasks 1 LogReq where
  party := LogTask.party
  handler := .httpd
  worker _ := .worker
  party_handler t := by cases t <;> simp [LogTask.party]
  party_worker t index := by
    have only : (0 : Fin 1) = index := Subsingleton.elim _ _
    cases t <;> simp [LogTask.party, only]
  view _ := poolView
  contents := LogShared.contents
  answers _ _ _ _ _ replied := (pool_observe replied).1
  moves _ _ _ _ _ replied := (pool_observe replied).2
  handlerHead round handling := round = .httpd ∧ handling = .nothing
  workerHead := workerHead
  otherHead t round := t.runs round

@[simp] theorem logPool_view (t : LogTask) : logPool.view t = poolView := rfl

theorem logRequestQueue_tries (req : LogReq) :
    (logRequestQueue req).Meets logPool.handlerMonitor (Handling.Returns espOk espErrNotFinished espFail)
      .nothing := by
  simp [logRequestQueue, Handling.nothing, Handling.Permits, Handling.after, Handling.Returns]
  constructor
  · intro begun
    by_cases ok : begun.err = espOk <;> simp [ok]
  · intro begun
    by_cases ok : begun.err = espOk <;> simp [ok]

theorem httpdRound_releases :
    httpdRound.Meets logPool.handlerMonitor (fun handling round => round = .httpd ∧ handling = .nothing)
      .nothing := by
  simp only [httpdRound, logGetHandler, CallTree.meets_bind, CallTree.meets_perform]
  constructor
  · simp [poolView]
  · intro req
    refine (logRequestQueue_tries req).mono fun handling err tried => ?_
    by_cases ok : err = espOk
    · subst ok
      simpa using tried.eq_nothing (by decide) (by decide)
    · obtain ⟨permits, done⟩ := tried.refuses ok
      simp [ok, logRefusal, permits, done]

/-- Capturing a line is of no interest to the pool. -/
theorem espLog_serves {post : PoolWorker LogReq → Unit → Prop} {worker : PoolWorker LogReq} {index : Fin 1}
    (ends : post worker ()) : espLog.Meets (logPool.workerMonitor index) post worker := by
  simp [espLog, logCaptureVprintf, poolView, ends]

theorem readyRound_serves (index : Fin 1) {worker : PoolWorker LogReq}
    (head : worker = .starting ∨ worker = .finished) :
    readyRound.Meets (logPool.workerMonitor index) (fun worker round => workerHead round worker) worker := by
  have gives : worker.Permits .gave ∧ worker.after .gave = .waiting := by
    rcases head with rfl | rfl <;> exact ⟨trivial, rfl⟩
  simp [readyRound, poolView, gives]
  constructor
  · intro received
    cases received <;> simp [PoolWorker.Permits]
  · intro received
    cases received with
    | none => simp [PoolWorker.after]
    | some asyncReq =>
        simp only [CallTree.meets_bind]
        apply espLog_serves
        simp [poolView, PoolWorker.after]

theorem sendingRound_serves (index : Fin 1) (asyncReq : LogAsyncRequest) (lastSent : UInt32) :
    (sendingRound asyncReq lastSent).Meets (logPool.workerMonitor index)
      (fun worker round => workerHead round worker) (.serving asyncReq.req) := by
  have finishes : (logFinish asyncReq).Meets (logPool.workerMonitor index)
      (fun worker round => workerHead round worker) (.serving asyncReq.req) := by
    rw [logFinish, CallTree.meets_bind]
    apply espLog_serves
    simp [poolView, PoolWorker.Permits, PoolWorker.after]
    exact fun _ _ => espLog_serves (.inr rfl)
  simp [sendingRound, logClientIsConnected, poolView, finishes]

theorem loggingRound_aloof (t : LogTask) :
    loggingRound.Meets (logPool.otherMonitor t) (fun _ round => round = .logging) () := by
  simp [loggingRound, logCaptureVprintf, poolView]

/-- The `/log` pool in every run. -/
theorem logPool_served {early : List (List UInt8)} {history s} (run : (logSystem early).Exec history s) :
    ∃ pool, logPool.Serves history s pool := by
  refine logPool.serves_of_exec ?_ ?_ ?_ ⟨rfl, rfl⟩ ?_ ?_ rfl run
  · rintro round handling ⟨rfl, rfl⟩
    exact httpdRound_releases
  · intro index round worker head
    cases round with
    | ready => exact readyRound_serves index head
    | sending asyncReq lastSent =>
        obtain rfl : worker = .serving asyncReq.req := head
        exact sendingRound_serves index asyncReq lastSent
    | httpd | logging => exact head.elim
  · intro t other round runs
    cases t with
    | httpd | worker => cases other
    | logger index =>
        cases round with
        | logging =>
            refine (loggingRound_aloof (.logger index)).mono fun _ round same => ?_
            rw [same]
            rfl
        | _ => cases runs
  · intro index
    exact Or.inl rfl
  · intro t _
    cases t <;> rfl

end EspGnss.Log
