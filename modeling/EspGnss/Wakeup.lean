import EspGnss.Http.Wakeup
import EspGnss.Log.Wakeup

/-! # No lost wakeups

The stream workers and the log worker check and then wait; the LED task waits and then
checks. Neither order loses a wakeup.
-/

namespace EspGnss

open Foundation

/-- In every reached state each consumer that waits without a notification has seen what
    is there, or a producer is about to notify it. -/
theorem no_lost_wakeup (workers : Nat) :
    (∀ history s, (Http.httpSystem workers).Exec history s →
      Http.StreamWakesUp history s ∧ Http.LedWakesUp history s) ∧
    (∀ early history s, (Log.logSystem early).Exec history s → Log.LogWakesUp history s) := by
  refine ⟨fun history s run => ⟨?_, ?_⟩, fun early history s run => ?_⟩
  · exact Http.stream_wakes_up run
  · exact Http.led_wakes_up run
  · exact Log.log_wakes_up run

/-! The log worker has sent its own line and waits; another task has stored a line and has
not notified the worker yet. -/

def behindSchedule : List Log.LogTask :=
  .worker :: List.replicate 4 .httpd ++ List.replicate 16 .worker ++ List.replicate 2 (.logger 0)

def behindRun : Option (Log.LogStack × List Log.LogStep) :=
  System.replay Log.logTasks.next (Log.logTasks.initial (.initial []) Log.LogTask.start)
    (behindSchedule.map fun t => (t, Log.LogCall.succeeds))

theorem behindRun_isSome : behindRun.isSome = true := by decide +kernel

theorem no_lost_wakeup_behind : ∃ index, Log.LoggerOwes index (behindRun.get behindRun_isSome).2 ∧ ∃ c,
    ((behindRun.get behindRun_isSome).1.task (.logger index)).program.head? = some c ∧
      (c = .workerHandle ∨ c = .notifyGive) :=
  (no_lost_wakeup 1).2 [] _ _ (System.Exec.of_replay_isSome behindRun_isSome)
    (by decide +kernel) (by decide +kernel) (by decide +kernel)

end EspGnss
