import EspGnss.Foundation.WorkerPool
import EspGnss.Ota.Decision

/-! # The worker pool of `/flash`

Its pool has one worker; the handler takes the token before it clones the request.
-/

namespace EspGnss.Ota

open Foundation OtaCall

/-- What a call of its handler or of its worker is for the pool. -/
@[simp] def poolView : PoolParty 1 → OtaEvent → Option (PoolEvent HttpdReq)
  | _, ⟨workerReadyTake, taken⟩ => some (.took taken)
  | _, ⟨workerReadyGive, _⟩ => some .gave
  | _, ⟨requestQueueSend asyncReq, sent⟩ => some (.sent asyncReq.req sent)
  | _, ⟨requestQueueReceive, received⟩ =>
      some (received.elim .timedOut fun asyncReq => .received asyncReq.req)
  | _, ⟨asyncHandlerBegin req, err⟩ => some (if err = espOk then .cloned req else .uncloned)
  | _, ⟨asyncHandlerComplete req, _⟩ => some (.completed req)
  | .handler, ⟨respSendstr status text, _⟩ =>
      if status = some "409 Conflict" ∧ text = "another firmware upload is already active\n" then some .refused
      else none
  | _, _ => none

abbrev handlingMonitor : Monitor OtaCall.Reply (Handling HttpdReq) := Handling.monitor (poolView .handler)

abbrev servingMonitor : Monitor OtaCall.Reply (PoolWorker HttpdReq) :=
  PoolWorker.monitor (poolView (.worker ⟨0, Nat.one_pos⟩))

def OtaParty.poolParty : OtaParty → Option (PoolParty 1)
  | httpd _ => some .handler
  | worker => some (.worker ⟨0, Nat.one_pos⟩)
  | timer => none

/-- The steps of the pool in a history. -/
def poolSteps (history : List OtaStep) : List (PoolStep 1 HttpdReq) :=
  history.filterMap fun step =>
    step.party.poolParty.bind fun party => (poolView party step.event).map (party, ·)

def OtaShared.contents (shared : OtaShared) : PoolContents HttpdReq :=
  ⟨shared.workerReady.toNat, shared.requestQueue.toList.map OtaAsyncRequest.req⟩

/-- The objects of the pool answer and move as the abstract pool does. -/
theorem pool_observe (party : PoolParty 1) {shared : OtaShared} {answer : (c : OtaCall) → c.Reply} {c : OtaCall} {reply : c.Reply}
    (replied : shared.reply answer c = some reply) :
    (∀ event ∈ poolView party ⟨c, reply⟩, shared.contents.Answers 1 event) ∧
      (shared.observe ⟨c, reply⟩).contents =
        (poolView party ⟨c, reply⟩).elim shared.contents (shared.contents.move 1) := by
  cases c with
  | workerReadyTake =>
      obtain rfl : shared.workerReady = reply := Option.some.inj replied
      cases ready : shared.workerReady <;>
        simp [poolView, OtaShared.contents, OtaShared.observe, PoolContents.Answers, PoolContents.move, ready]
  | workerReadyGive =>
      cases ready : shared.workerReady <;>
        simp [poolView, OtaShared.contents, OtaShared.observe, PoolContents.Answers, PoolContents.move, ready]
  | requestQueueSend asyncReq =>
      obtain rfl : shared.requestQueue.isNone = reply := Option.some.inj replied
      cases queue : shared.requestQueue <;>
        simp [poolView, OtaShared.contents, OtaShared.observe, PoolContents.Answers, PoolContents.move, queue]
  | requestQueueReceive =>
      obtain ⟨asyncReq, queued, rfl⟩ := Option.map_eq_some_iff.mp replied
      simp [poolView, OtaShared.contents, OtaShared.observe, PoolContents.Answers, PoolContents.move, queued]
  | asyncHandlerBegin req =>
      rw [poolView]
      split
      · exact ⟨by simp [PoolContents.Answers], rfl⟩
      · exact ⟨by simp [PoolContents.Answers], rfl⟩
  | respSendstr status text =>
      cases party with
      | worker => exact ⟨by simp, rfl⟩
      | handler =>
          rw [poolView]
          split
          · exact ⟨by simp [PoolContents.Answers], rfl⟩
          · exact ⟨by simp, rfl⟩
  | asyncHandlerComplete req => exact ⟨by simp [poolView, PoolContents.Answers], rfl⟩
  | timerStart timer | timerStop timer => cases reply <;> exact ⟨by simp [poolView], rfl⟩
  | otaSetBootPartition | otaMarkAppInvalidRollback =>
      refine ⟨by simp [poolView], ?_⟩
      rw [OtaShared.observe]
      split <;> rfl
  | _ => exact ⟨by simp [poolView], rfl⟩

theorem otaRequestQueue_tries (req : HttpdReq) (updatePartition : EspPartition) (sha256 : Sha256) :
    (otaRequestQueue req updatePartition sha256).Meets handlingMonitor
      (Handling.Returns espOk espErrNotFinished espFail) .nothing := by
  simp [otaRequestQueue, Handling.nothing, Handling.Permits, Handling.after, Handling.Returns]
  constructor
  · intro err
    by_cases ok : err = espOk <;> simp [ok]
  · intro err
    by_cases ok : err = espOk <;> simp [ok]

theorem otaFlashPostHandler_releases (req : HttpdReq) :
    (otaFlashPostHandler req).Meets handlingMonitor (fun handling _ => handling = .nothing) .nothing := by
  unfold otaFlashPostHandler otaSha256HeaderParse
  simp
  intro nonempty header ok
  cases otaSha256Parse header.value with
  | none => simp
  | some sha256 =>
      simp only [CallTree.meets_bind, CallTree.meets_perform]
      refine ⟨by simp, fun updatePartition => ?_⟩
      cases updatePartition with
      | none => simp
      | some updatePartition =>
          change CallTree.Meets _ _ _ (if req.contentLen > updatePartition.size then _ else _)
          split
          · simp
          · refine CallTree.meets_bind.mpr ((otaRequestQueue_tries _ _ _).mono fun handling err tried => ?_)
            by_cases ok : err = espOk
            · subst ok
              simpa using tried.eq_nothing (by decide) (by decide)
            · obtain ⟨permits, done⟩ := tried.refuses ok
              simp [ok, permits, done]

theorem handler_releases (req : HttpdReq) (uri : OtaUri) :
    (uri.handler req).Meets handlingMonitor (fun handling _ => handling = .nothing) .nothing := by
  cases uri with
  | flash => exact otaFlashPostHandler_releases req
  | status => simp [OtaUri.handler, otaStatusGetHandler]
  | confirm => simp [OtaUri.handler, otaConfirmPostHandler]
  | rollback => simp [OtaUri.handler, otaRollbackPostHandler, otaRestartSchedule]

theorem otaWorkerServe_serves (asyncReq : OtaAsyncRequest) :
    (otaWorkerServe asyncReq).Meets servingMonitor (fun worker _ => worker = .finished)
      (.serving asyncReq.req) := by
  unfold otaWorkerServe otaFlashReceive otaFlashReceiveBody otaWorkerFinish otaRestartSchedule
  simp [poolView, PoolWorker.Permits, PoolWorker.after]
  intro begun started
  refine (otaReceiveLoop_keeps (I := (· = .serving asyncReq.req)) ?_ rfl).mono ?_
  · rintro worker c rfl inLoop
    cases c with
    | reqRecv | psaHashUpdate | respSendstr | otaWrite => simp [poolView]
    | _ => exact inLoop.elim
  · rintro worker ending rfl
    simp [otaFlashReceiveVerify, poolView]

/-- Where the pool's worker is when the task is at a place of its loop. -/
def OtaWorker.Stands : OtaWorker → PoolWorker HttpdReq → Prop
  | giving, worker => worker = .starting ∨ worker = .finished
  | waiting, worker => worker = .waiting
  | serving program, worker =>
      program.Meets servingMonitor (fun worker _ => worker = .finished) worker

/-- The pool that a run has made of the state. -/
structure FlashPool (s : OtaStack) (pool : Pool 1 HttpdReq) : Prop where
  contents : pool.toPoolContents = s.shared.contents
  idle : s.httpd = none → pool.handler = .nothing
  handler : ∀ serving, s.httpd = some serving →
    serving.program.Meets handlingMonitor (fun handling _ => handling = .nothing) pool.handler
  worker : s.worker.Stands (pool.worker 0)
  timer : ∀ program, s.timer = some program → program.Avoids fun c => ¬InCallback c

theorem poolSteps_append (history : List OtaStep) (step : OtaStep) :
    poolSteps (history ++ [step]) = poolSteps history ++
      (step.party.poolParty.bind fun party => (poolView party step.event).map (party, ·)).toList := by
  rw [poolSteps, List.filterMap_append, List.filterMap_cons, List.filterMap_nil]
  cases step.party.poolParty.bind fun party => (poolView party step.event).map (party, ·) <;> rfl

/-- A call that the pool permits its worker. -/
theorem FlashPool.works {history : List OtaStep} {s : OtaStack} {pool : Pool 1 HttpdReq} {answer c reply}
    {worker : OtaWorker} (run : (poolSystem 1 HttpdReq).Exec (poolSteps history) pool) (stands : FlashPool s pool)
    (replied : s.shared.reply answer c = some reply)
    (permits : ∀ event ∈ poolView (.worker 0) ⟨c, reply⟩, (pool.worker 0).Permits event)
    (later : worker.Stands ((poolView (.worker 0) ⟨c, reply⟩).elim (pool.worker 0) (pool.worker 0).after)) :
    ∃ pool', (poolSystem 1 HttpdReq).Exec (poolSteps (history ++ [⟨.worker, ⟨c, reply⟩⟩])) pool' ∧
      FlashPool { s with shared := s.shared.observe ⟨c, reply⟩, worker } pool' := by
  obtain ⟨answers, moves⟩ := pool_observe (.worker 0) replied
  have moved := worker_exec run 0 permits (by rwa [stands.contents])
  rw [poolSteps_append]
  refine ⟨_, moved, ?_, stands.idle, stands.handler, ?_, stands.timer⟩
  · rw [moves, stands.contents]
  · simpa using later

/-- A step of the server, the worker or the timer service is one of the pool or none. -/
theorem FlashPool.step {history : List OtaStep} {s : OtaStack} {pool : Pool 1 HttpdReq} {action s' events}
    (run : (poolSystem 1 HttpdReq).Exec (poolSteps history) pool) (stands : FlashPool s pool)
    (step : OtaTransition s action s' events) :
    ∃ pool', (poolSystem 1 HttpdReq).Exec (poolSteps (history ++ events)) pool' ∧ FlashPool s' pool' := by
  cases step with
  | @request uri req idle =>
      refine ⟨pool, by rwa [List.append_nil], ?_⟩
      have nothing := stands.idle idle
      exact { stands with
        idle := by simp
        handler := by
          intro serving same
          cases same
          rw [nothing]
          exact handler_releases req uri }
  | handled finished =>
      refine ⟨pool, by rwa [List.append_nil], ?_⟩
      have nothing := stands.handler _ finished
      exact { stands with idle := fun _ => nothing, handler := by simp }
  | @handles answer uri c later reply running replied =>
      obtain ⟨allowed, onward⟩ := stands.handler _ running
      obtain ⟨answers, moves⟩ := pool_observe .handler replied
      have taken := handler_exec run (allowed reply) (by rwa [stands.contents])
      rw [poolSteps_append]
      refine ⟨_, taken, ?_, by simp, ?_, stands.worker, stands.timer⟩
      · rw [moves, stands.contents]
      · intro serving same
        cases same
        exact onward reply
  | @gives answer giving =>
      have begins : pool.worker 0 = .starting ∨ pool.worker 0 = .finished := by
        simpa [giving, OtaWorker.Stands] using stands.worker
      have permits : ∀ event ∈ poolView (.worker 0) ⟨workerReadyGive, ()⟩, (pool.worker 0).Permits event := by
        rcases begins with same | same <;> simp [poolView, same, PoolWorker.Permits]
      have replied : s.shared.reply answer workerReadyGive = some () := rfl
      exact stands.works run replied permits rfl
  | @receives answer asyncReq waiting queued =>
      have waits : pool.worker 0 = .waiting := by simpa [waiting, OtaWorker.Stands] using stands.worker
      have replied : s.shared.reply answer requestQueueReceive = some (some asyncReq) := by
        simp [OtaShared.reply, queued]
      have permits : ∀ event ∈ poolView (.worker 0) ⟨requestQueueReceive, some asyncReq⟩, (pool.worker 0).Permits event := by
        simp [poolView, waits, PoolWorker.Permits]
      exact stands.works run replied permits (otaWorkerServe_serves asyncReq)
  | served finished =>
      have ended : pool.worker 0 = .finished := by simpa [finished, OtaWorker.Stands] using stands.worker
      exact ⟨pool, by rwa [List.append_nil], { stands with worker := .inr ended }⟩
  | @serves answer c later reply running replied =>
      have serving : (CallTree.call c later).Meets servingMonitor
          (fun worker _ => worker = .finished) (pool.worker 0) := by
        simpa [running, OtaWorker.Stands] using stands.worker
      exact stands.works run replied (serving.1 reply) (serving.2 reply)
  | @command command rest idle queued =>
      refine ⟨pool, by rwa [List.append_nil], { stands with contents := ?_ }⟩
      rw [stands.contents]
      cases command with
      | start timer | stop timer => cases timer <;> rfl
  | @expires timer idle armed =>
      refine ⟨pool, by rwa [List.append_nil], { stands with contents := ?_, timer := ?_ }⟩
      · rw [stands.contents]
        cases timer <;> rfl
      · intro program same
        cases same
        exact callback_avoids timer
  | returned finished =>
      exact ⟨pool, by rwa [List.append_nil], { stands with timer := by simp }⟩
  | @calls answer c later reply running replied =>
      obtain ⟨inside, onward⟩ := stands.timer _ running
      have same : (s.shared.observe ⟨c, reply⟩).contents = s.shared.contents := by
        cases c with
        | confirmationPendingGet | espRestart => rfl
        | _ => exact absurd (fun within => within) inside
      refine ⟨pool, ?_, { stands with contents := ?_, timer := ?_ }⟩
      · rw [poolSteps_append]
        simpa [OtaParty.poolParty] using run
      · rw [stands.contents, same]
      · intro program same
        cases same
        exact onward reply

/-- The `/flash` pool in every run. -/
theorem flashPool_served {pendingVerify : Bool} {history s}
    (run : (otaSystem pendingVerify).Exec history s) :
    ∃ pool, (poolSystem 1 HttpdReq).Exec (poolSteps history) pool ∧ FlashPool s pool ∧
      PoolKept (poolSteps history) pool := by
  have reached : ∃ pool, (poolSystem 1 HttpdReq).Exec (poolSteps history) pool ∧ FlashPool s pool := by
    refine System.Exec.invariant (I := fun history s =>
      ∃ pool, (poolSystem 1 HttpdReq).Exec (poolSteps history) pool ∧ FlashPool s pool)
      (fun s first => ?_) (fun history s action s' events _ reached step => ?_) run
    · cases first
      refine ⟨.initial, .start rfl, rfl, fun _ => rfl, by simp [OtaStack.initial], .inl rfl, ?_⟩
      simp [OtaStack.initial]
    · obtain ⟨pool, ran, stands⟩ := reached
      exact stands.step ran (OtaTransition.of_next step).2
  obtain ⟨pool, ran, stands⟩ := reached
  exact ⟨pool, ran, stands, poolKept_of_exec ran⟩

end EspGnss.Ota
