import EspGnss.Http.Pools
import EspGnss.Log.Pool
import EspGnss.Ota.Pool

/-! # The four worker pools

`/stream` with `/view`, `/write`, `/log` and `/flash` follow one pattern in two orders:
the token is taken after or before the request is cloned.
-/

namespace EspGnss

open Foundation

/-- In every run each pool conserves its tokens and the copies of its requests, and what
    the attempts to queue a request return says what has become of it. -/
theorem pools_conserve (workers : Nat) :
    (∀ pool history s, (Http.httpSystem workers).Exec history s →
      ∃ state, (Http.HttpPool.pooled workers pool).Serves history s state) ∧
    (∀ early history s, (Log.logSystem early).Exec history s →
      ∃ state, Log.logPool.Serves history s state) ∧
    (∀ pendingVerify history s, (Ota.otaSystem pendingVerify).Exec history s →
      ∃ state, (poolSystem 1 Ota.HttpdReq).Exec (Ota.poolSteps history) state ∧
        Ota.FlashPool s state ∧ PoolKept (Ota.poolSteps history) state) ∧
    (∀ (req : Http.HttpdReq) contentType, req.uri.pool = .stream →
      (Http.streamRequestQueue req contentType).Meets (Http.HttpPool.stream.pooled workers).handlerMonitor
        (Handling.Returns espOk espErrNotFinished espFail) .nothing) ∧
    (∀ req : Http.HttpdReq, req.uri.pool = .write →
      (Http.writeRequestQueue req).Meets (Http.HttpPool.write.pooled workers).handlerMonitor
        (Handling.Returns espOk espErrNotFinished espFail) .nothing) ∧
    (∀ req, (Log.logRequestQueue req).Meets Log.logPool.handlerMonitor
      (Handling.Returns espOk espErrNotFinished espFail) .nothing) ∧
    ∀ req partition sha256, (Ota.otaRequestQueue req partition sha256).Meets Ota.handlingMonitor
      (Handling.Returns espOk espErrNotFinished espFail) .nothing := by
  refine ⟨?_, ?_, ?_, ?_, ?_, ?_, ?_⟩
  · intro pool history s run
    exact Http.pool_served pool run
  · intro early history s run
    exact Log.logPool_served run
  · intro pendingVerify history s run
    exact Ota.flashPool_served run
  · intro req contentType streams
    exact Http.streamRequestQueue_tries .stream streams contentType
  · intro req writes
    exact Http.writeRequestQueue_tries .write writes
  · exact Log.logRequestQueue_tries
  · exact Ota.otaRequestQueue_tries

/-! The `/log` worker arms itself, the handler accepts a request and the worker takes it. -/

def acceptedRun : Option (Log.LogStack × List Log.LogStep) :=
  System.replay Log.logTasks.next (Log.logTasks.initial (.initial []) Log.LogTask.start)
    ([.worker, .httpd, .httpd, .httpd, .httpd, .worker].map fun t => (t, Log.LogCall.succeeds))

theorem acceptedRun_isSome : acceptedRun.isSome = true := by decide +kernel

theorem pools_conserve_accepted : ∃ state,
    Log.logPool.Serves (acceptedRun.get acceptedRun_isSome).2 (acceptedRun.get acceptedRun_isSome).1 state :=
  (pools_conserve 1).2.1 [] _ _ (System.Exec.of_replay_isSome acceptedRun_isSome)

end EspGnss
