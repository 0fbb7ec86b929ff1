import EspGnss.Http.Calls

/-! # The worker pools of the HTTP tasks

`/stream` and `/view` share the pool of stream workers, which clones a request before it
takes a token; `/write` has a pool of one worker and takes the token first.
-/

namespace EspGnss.Http

open Foundation Gnss HttpCall

variable {workers : Nat}

def HttpUri.pool : HttpUri → HttpPool
  | read | view => .stream
  | write => .write

/-- Whether a copy that a task completes is one of the pool: a worker completes what it
    has received, and the server what it has made for one of the handlers. -/
def HttpPool.completes (pool : HttpPool) (req : HttpdReq) : HttpTask workers → Bool
  | .httpd => req.uri.pool = pool
  | .streamWorker _ => pool = .stream
  | .writeWorker => pool = .write
  | .dispatcher | .led | .gnss => false

/-- What the handlers answer a request that has not been queued. -/
def HttpPool.refusal : HttpPool → String
  | stream => "all stream workers are in use\n"
  | write => "another GNSS writer is already active\n"

def HttpPool.refuses (pool : HttpPool) (text : String) : HttpTask workers → Bool
  | .httpd => text = pool.refusal
  | .streamWorker _ | .writeWorker | .dispatcher | .led | .gnss => false

/-- What a call is for a pool. -/
@[simp] def HttpPool.view (pool : HttpPool) (task : HttpTask workers) : HttpEvent workers → Option (PoolEvent HttpdReq)
  | ⟨workerReadyTake used, taken⟩ => if used = pool then some (.took taken) else none
  | ⟨workerReadyGive used, _⟩ => if used = pool then some .gave else none
  | ⟨requestQueueSend used asyncReq, sent⟩ => if used = pool then some (.sent asyncReq.req sent) else none
  | ⟨requestQueueReceive used, received⟩ =>
      if used = pool then some (received.elim .timedOut fun asyncReq => .received asyncReq.req) else none
  | ⟨asyncHandlerBegin req, begun⟩ =>
      if req.uri.pool = pool then
        some (if begun.err = espOk then .cloned { req with id := begun.id } else .uncloned)
      else none
  | ⟨asyncHandlerComplete req, _⟩ => if pool.completes req task then some (.completed req) else none
  | ⟨respSendstr _ text, _⟩ => if pool.refuses text task then some .refused else none
  | _ => none

def HttpShared.contents (shared : HttpShared workers) (pool : HttpPool) : PoolContents HttpdReq :=
  (shared.pools pool).contents HttpAsyncRequest.req

theorem contents_setPool (shared : HttpShared workers) (used pool : HttpPool) (objects) :
    (shared.setPool used objects).contents pool =
      if used = pool then objects.contents HttpAsyncRequest.req else shared.contents pool := by
  split
  · rename_i same
    subst same
    exact congrArg (PoolObjects.contents HttpAsyncRequest.req) (Function.update_self ..)
  · rename_i apart
    exact congrArg (PoolObjects.contents HttpAsyncRequest.req) (Function.update_of_ne (Ne.symm apart) ..)

/-- The objects of a pool answer and move as the abstract pool does. -/
theorem pool_observe (pool : HttpPool) {task : HttpTask workers} {shared : HttpShared workers}
    {answer : (c : HttpCall workers) → c.Reply} {c : HttpCall workers} {reply : c.Reply}
    (replied : shared.reply task answer c = some reply) :
    (∀ event ∈ pool.view task ⟨c, reply⟩, (shared.contents pool).Answers (pool.capacity workers) event) ∧
      (shared.observe task ⟨c, reply⟩).contents pool =
        (pool.view task ⟨c, reply⟩).elim (shared.contents pool)
          ((shared.contents pool).move (pool.capacity workers)) := by
  cases c with
  | workerReadyTake used =>
      obtain rfl := Option.some.inj replied
      rw [HttpShared.observe, contents_setPool, HttpPool.view]
      rcases Decidable.eq_or_ne used pool with rfl | apart
      · simp [PoolContents.Answers]
        exact ⟨Iff.rfl, rfl⟩
      · simp [apart]
  | workerReadyGive used =>
      rw [HttpShared.observe, contents_setPool, HttpPool.view]
      rcases Decidable.eq_or_ne used pool with rfl | apart
      · simp [PoolContents.Answers, HttpShared.contents]
      · simp [apart]
  | requestQueueSend used asyncReq =>
      obtain rfl := Option.some.inj replied
      rw [HttpShared.observe, HttpPool.view]
      rcases Decidable.eq_or_ne used pool with rfl | apart
      · constructor
        · simp [PoolContents.Answers, HttpShared.contents, PoolObjects.contents]
        · by_cases room : (shared.pools used).queue.items.length < used.capacity workers
          · have sent : ((shared.pools used).send asyncReq).contents HttpAsyncRequest.req = _ :=
              PoolObjects.contents_send HttpAsyncRequest.req room
            simp only [room, decide_true, if_true, contents_setPool, sent, Option.elim_some]
            rfl
          · simp [room, PoolContents.move]
      · by_cases room : (shared.pools used).queue.items.length < used.capacity workers <;>
          simp [room, contents_setPool, apart]
  | requestQueueReceive used =>
      obtain ⟨⟨asyncReq, queue⟩, received, rfl⟩ := Option.map_eq_some_iff.mp replied
      rw [HttpShared.observe, contents_setPool, HttpPool.view]
      rcases Decidable.eq_or_ne used pool with rfl | apart
      · obtain ⟨front, rest⟩ := PoolObjects.contents_receive HttpAsyncRequest.req received
        simp [PoolContents.Answers, HttpShared.contents, front, rest]
      · simp [apart]
  | asyncHandlerBegin req =>
      rw [HttpPool.view]
      split
      · by_cases begun : reply.err = espOk
        · rw [if_pos begun]
          exact ⟨by simp [PoolContents.Answers], rfl⟩
        · rw [if_neg begun]
          exact ⟨by simp [PoolContents.Answers], rfl⟩
      · exact ⟨by simp, rfl⟩
  | asyncHandlerComplete req | respSendstr req text =>
      rw [HttpPool.view]
      split
      · exact ⟨by simp [PoolContents.Answers], rfl⟩
      · exact ⟨by simp, rfl⟩
  | notifyTake wait =>
      refine ⟨by simp [HttpPool.view], ?_⟩
      rw [HttpShared.observe]
      cases task.notified <;> rfl
  | ledClientDisconnected | ledPacketConsumed =>
      refine ⟨by simp [HttpPool.view], ?_⟩
      rw [HttpShared.observe]
      split <;> rfl
  | _ => exact ⟨by simp [HttpPool.view], rfl⟩

def HttpPool.party : (pool : HttpPool) → HttpTask workers → Option (PoolParty (pool.capacity workers))
  | _, .httpd => some .handler
  | stream, .streamWorker index => some (.worker index)
  | write, .writeWorker => some (.worker ⟨0, Nat.one_pos⟩)
  | _, _ => none

def HttpPool.worker : (pool : HttpPool) → Fin (pool.capacity workers) → HttpTask workers
  | stream, index => .streamWorker index
  | write, _ => .writeWorker

/-- Where a worker of a pool is at the start of its rounds. -/
def HttpPool.workerHead : HttpPool → HttpRound → PoolWorker HttpdReq → Prop
  | stream, .streamReady, worker | write, .writeReady, worker =>
      worker = .starting ∨ worker = .finished
  | stream, .streaming asyncReq _, worker | write, .writing asyncReq _, worker =>
      worker = .serving asyncReq.req
  | _, _, _ => False

section Heads

variable {worker : PoolWorker HttpdReq} {asyncReq : HttpAsyncRequest}

@[simp] theorem workerHead_streamReady :
    HttpPool.stream.workerHead .streamReady worker ↔ worker = .starting ∨ worker = .finished := Iff.rfl

@[simp] theorem workerHead_streaming {lastSequence : UInt32} :
    HttpPool.stream.workerHead (.streaming asyncReq lastSequence) worker ↔
      worker = .serving asyncReq.req := Iff.rfl

@[simp] theorem workerHead_writeReady :
    HttpPool.write.workerHead .writeReady worker ↔ worker = .starting ∨ worker = .finished := Iff.rfl

@[simp] theorem workerHead_writing {remaining : Nat} :
    HttpPool.write.workerHead (.writing asyncReq remaining) worker ↔
      worker = .serving asyncReq.req := Iff.rfl

end Heads

def HttpPool.pooled (workers : Nat) (pool : HttpPool) :
    PooledTasks (httpTasks workers) (pool.capacity workers) HttpdReq where
  party := pool.party
  handler := .httpd
  worker := pool.worker
  party_handler t := by cases pool <;> cases t <;> simp [party]
  party_worker t index := by
    cases pool with
    | stream => cases t <;> simp [party, worker]
    | write =>
        have only : (0 : Fin 1) = index := Subsingleton.elim _ _
        cases t <;> simp [party, worker, only]
  view := pool.view
  contents shared := shared.contents pool
  answers _ _ _ _ _ replied := (pool_observe pool replied).1
  moves _ _ _ _ _ replied := (pool_observe pool replied).2
  handlerHead round handling := round = .httpd ∧ handling = .nothing
  workerHead := pool.workerHead
  otherHead t round := t.runs round

@[simp] theorem pooled_view (pool : HttpPool) : (pool.pooled workers).view = pool.view := rfl

@[simp] theorem pooled_handler (pool : HttpPool) :
    (pool.pooled workers).handler = .httpd := rfl

@[simp] theorem pooled_worker (pool : HttpPool) :
    (pool.pooled workers).worker = pool.worker := rfl

/-- A program of the server task that starts with nothing ends with nothing. -/
abbrev HttpPool.Releases {α : Type} (pool : HttpPool) (program : HttpProgram workers α) : Prop :=
  program.Meets (pool.pooled workers).handlerMonitor (fun handling _ => handling = .nothing) .nothing

/-- What is in the hands after an attempt to queue a request at one of the pools. -/
def HttpPool.Tried (pool used : HttpPool) (handling : Handling HttpdReq) (err : EspErr) : Prop :=
  if used = pool then handling.Returns espOk espErrNotFinished espFail err else handling = .nothing

section Handlers

variable (pool : HttpPool)

theorem streamRequestQueue_tries {req : HttpdReq} (streams : req.uri.pool = .stream) (contentType : String) :
    (streamRequestQueue req contentType : HttpProgram workers EspErr).Meets (pool.pooled workers).handlerMonitor
      (pool.Tried .stream) .nothing := by
  cases pool with
  | write => simp [streamRequestQueue, HttpPool.completes, HttpPool.Tried, streams]
  | stream =>
      simp only [streamRequestQueue, CallTree.meets_bind, CallTree.meets_perform]
      constructor
      · intro begun
        by_cases ok : begun.err = espOk <;> simp [ok, streams, Handling.nothing, Handling.Permits]
      · intro begun
        by_cases ok : begun.err = espOk <;>
          simp [ok, streams, HttpPool.completes, HttpPool.Tried, Handling.nothing, Handling.Permits,
            Handling.after, Handling.Returns]

theorem writeRequestQueue_tries {req : HttpdReq} (writes : req.uri.pool = .write) :
    (writeRequestQueue req : HttpProgram workers EspErr).Meets (pool.pooled workers).handlerMonitor
      (pool.Tried .write) .nothing := by
  cases pool with
  | stream => simp [writeRequestQueue, HttpPool.completes, HttpPool.Tried, writes]
  | write =>
      simp [writeRequestQueue, HttpPool.completes, HttpPool.Tried, writes, Handling.nothing, Handling.Permits,
        Handling.after, Handling.Returns]
      constructor
      · intro begun
        by_cases ok : begun.err = espOk <;> simp [ok]
      · intro begun
        by_cases ok : begun.err = espOk <;> simp [ok]

theorem respondText_releases (req : HttpdReq) (status : String) {text : String} (other : text ≠ pool.refusal) :
    pool.Releases (respondText req status text : HttpProgram workers Unit) := by
  simp [respondText, HttpPool.refuses, other]

/-- What the handlers do with the outcome of queueing. -/
theorem answered_releases {used : HttpPool} {request : HttpProgram workers EspErr}
    (queued : request.Meets (pool.pooled workers).handlerMonitor (pool.Tried used) .nothing)
    (req : HttpdReq) (status : String) :
    pool.Releases (do
      let err ← request
      if err = espOk then return espOk
      respondText req status used.refusal
      return espOk) := by
  rw [HttpPool.Releases, CallTree.meets_bind]
  refine queued.mono fun handling err tried => ?_
  by_cases same : used = pool
  · subst same
    rw [HttpPool.Tried, if_pos rfl] at tried
    by_cases ok : err = espOk
    · subst ok
      simpa using tried.eq_nothing (by decide) (by decide)
    · obtain ⟨permits, done⟩ := tried.refuses ok
      simp [ok, respondText, HttpPool.refuses, permits, done]
  · rw [HttpPool.Tried, if_neg same] at tried
    subst tried
    by_cases ok : err = espOk
    · simp [ok]
    · have other : used.refusal ≠ pool.refusal := by
        cases used <;> cases pool <;> first | exact absurd rfl same | decide
      simpa [ok] using respondText_releases pool req status other

theorem handler_releases (req : HttpdReq) : pool.Releases (req.uri.handler req : HttpProgram workers EspErr) := by
  cases uri : req.uri with
  | read | view =>
      exact answered_releases pool (streamRequestQueue_tries pool (congrArg HttpUri.pool uri) _) req _
  | write =>
      rw [HttpUri.handler, writePostHandler]
      by_cases empty : req.contentLen = 0
      · have other : "POST /write requires a non-empty Content-Length body\n" ≠ pool.refusal := by
          cases pool <;> decide
        simpa [empty] using respondText_releases pool req _ other
      · have queued : (writeRequestQueue req : HttpProgram workers EspErr).Meets
            (pool.pooled workers).handlerMonitor (pool.Tried .write) .nothing :=
          writeRequestQueue_tries pool (congrArg HttpUri.pool uri)
        simpa [empty, HttpPool.refusal] using answered_releases pool queued req "409 Conflict"

theorem httpdRound_releases :
    httpdRound.Meets (pool.pooled workers).handlerMonitor
      (fun handling round => round = .httpd ∧ handling = .nothing) .nothing := by
  simp only [httpdRound, CallTree.meets_bind, CallTree.meets_perform, CallTree.pure_eq, CallTree.meets_done,
    true_and]
  constructor
  · simp [HttpPool.view]
  · intro req
    exact handler_releases pool req

end Handlers

section Workers

theorem workerHead_gives {worker : PoolWorker HttpdReq} (head : worker = .starting ∨ worker = .finished) :
    worker.Permits .gave ∧ worker.after .gave = .waiting := by
  rcases head with rfl | rfl <;> exact ⟨trivial, rfl⟩

theorem streamReadyRound_serves (index : Fin workers) {worker : PoolWorker HttpdReq}
    (head : worker = .starting ∨ worker = .finished) :
    streamReadyRound.Meets ((HttpPool.stream.pooled workers).workerMonitor index)
      (fun worker round => HttpPool.stream.workerHead round worker) worker := by
  obtain ⟨gives, armed⟩ := workerHead_gives head
  simp [streamReadyRound, HttpPool.view, armed, gives]
  constructor
  · intro received
    cases received <;> simp [PoolWorker.Permits]
  · intro received
    cases received with
    | none => simp [PoolWorker.after]
    | some asyncReq => simp [genericLedClientConnected, genericLedWakeTask, HttpPool.view, PoolWorker.after]

theorem streamingRound_serves (index : Fin workers) (asyncReq : HttpAsyncRequest) (lastSequence : UInt32) :
    (streamingRound asyncReq lastSequence).Meets ((HttpPool.stream.pooled workers).workerMonitor index)
      (fun worker round => HttpPool.stream.workerHead round worker) (.serving asyncReq.req) := by
  have finishes : (streamFinish asyncReq).Meets ((HttpPool.stream.pooled workers).workerMonitor index)
      (fun worker round => HttpPool.stream.workerHead round worker) (.serving asyncReq.req) := by
    simp [streamFinish, genericLedClientDisconnected, genericLedWakeTask, HttpPool.view,
      HttpPool.completes, HttpPool.worker, PoolWorker.Permits, PoolWorker.after]
  simp only [streamingRound, CallTree.meets_bind, CallTree.meets_perform]
  refine ⟨by simp [HttpPool.view], fun copied => ?_⟩
  cases copied with
  | none => simp [HttpPool.view, streamClientIsConnected, finishes]
  | some publication =>
      simp [HttpPool.view, genericLedPacketConsumed, genericLedWakeTask, finishes]

theorem writeReadyRound_serves (index : Fin 1) {worker : PoolWorker HttpdReq}
    (head : worker = .starting ∨ worker = .finished) :
    writeReadyRound.Meets ((HttpPool.write.pooled workers).workerMonitor index)
      (fun worker round => HttpPool.write.workerHead round worker) worker := by
  obtain ⟨gives, armed⟩ := workerHead_gives head
  simp [writeReadyRound, HttpPool.view, armed, gives]
  constructor
  · intro received
    cases received <;> simp [PoolWorker.Permits]
  · intro received
    cases received with
    | none => simp [PoolWorker.after]
    | some asyncReq =>
        simp [respondText, writeFinish, HttpPool.refuses, HttpPool.completes, HttpPool.worker,
          PoolWorker.Permits, PoolWorker.after]

theorem writingRound_serves (index : Fin 1) (asyncReq : HttpAsyncRequest) (remaining : Nat) :
    (writingRound asyncReq remaining).Meets ((HttpPool.write.pooled workers).workerMonitor index)
      (fun worker round => HttpPool.write.workerHead round worker) (.serving asyncReq.req) := by
  have ends (result : EspErr) : (writeEnd asyncReq result).Meets ((HttpPool.write.pooled workers).workerMonitor index)
      (fun worker round => HttpPool.write.workerHead round worker) (.serving asyncReq.req) := by
    simp [writeEnd, writeFinish, HttpPool.refuses, HttpPool.completes, HttpPool.worker,
      PoolWorker.Permits, PoolWorker.after]
  simp [writingRound, HttpPool.view, ends]

theorem worker_serves {pool : HttpPool} {index : Fin (pool.capacity workers)} {round : HttpRound}
    {worker : PoolWorker HttpdReq} (head : pool.workerHead round worker) :
    round.program.Meets ((pool.pooled workers).workerMonitor index)
      (fun worker round => pool.workerHead round worker) worker := by
  cases pool with
  | stream =>
      cases round with
      | streamReady => exact streamReadyRound_serves index head
      | streaming asyncReq lastSequence =>
          obtain rfl : worker = .serving asyncReq.req := head
          exact streamingRound_serves index asyncReq lastSequence
      | _ => exact head.elim
  | write =>
      cases round with
      | writeReady => exact writeReadyRound_serves index head
      | writing asyncReq remaining =>
          obtain rfl : worker = .serving asyncReq.req := head
          exact writingRound_serves index asyncReq remaining
      | _ => exact head.elim

end Workers

/-- The other tasks make no call that the pool sees. -/
theorem other_aloof {pool : HttpPool} {t : HttpTask workers} (other : pool.party t = none)
    {c : HttpCall workers} (makes : t.makes c) (reply : c.Reply) : pool.view t ⟨c, reply⟩ = none := by
  cases t with
  | httpd => cases pool <;> cases other
  | streamWorker index =>
      obtain rfl : pool = .write := by cases pool <;> trivial
      cases c with
      | workerReadyTake used | requestQueueSend used _ | asyncHandlerBegin _ => cases makes
      | workerReadyGive used | requestQueueReceive used =>
          cases used with
          | stream => rfl
          | write => cases makes
      | _ => rfl
  | writeWorker =>
      obtain rfl : pool = .stream := by cases pool <;> trivial
      cases c with
      | workerReadyTake used | requestQueueSend used _ | asyncHandlerBegin _ => cases makes
      | workerReadyGive used | requestQueueReceive used =>
          cases used with
          | stream => cases makes
          | write => rfl
      | _ => rfl
  | dispatcher | led | gnss =>
      cases c with
      | workerReadyTake _ | workerReadyGive _ | requestQueueSend _ _ | requestQueueReceive _
      | asyncHandlerBegin _ => cases makes
      | _ => rfl

theorem pool_served (pool : HttpPool) {history s} (run : (httpSystem workers).Exec history s) :
    ∃ state, (pool.pooled workers).Serves history s state := by
  refine (pool.pooled workers).serves_of_exec ?_ ?_ ?_ ⟨rfl, rfl⟩ ?_ ?_ rfl run
  · rintro round handling ⟨rfl, rfl⟩
    exact httpdRound_releases pool
  · intro index round worker head
    exact worker_serves head
  · intro t other round runs
    refine (CallTree.Meets.of_calls (I := fun _ => True) ?_ (program_makes runs) trivial).mono
      fun _ _ ends => ends.2
    intro _ c _ makes
    exact ⟨other_aloof other makes, fun _ => trivial⟩
  · intro index
    cases pool <;> exact .inl rfl
  · intro t _
    cases t <;> rfl

end EspGnss.Http
