import EspGnss.Foundation.System
import EspGnss.Ota.Update

/-! # The OTA tasks together

The HTTP server task runs one handler after another, the OTA worker serves queued
requests, and the timer service runs the callbacks of expired timers. Each call of a
program is one atomic step, so every interleaving of the three tasks is a run.
-/

namespace EspGnss.Ota

open Foundation OtaCall

/-- What the running firmware has selected for the next boot. -/
inductive BootSelection
  | uploaded (partition : EspPartition)
  | rollback
  deriving DecidableEq, Repr

inductive TimerCommand
  | start (timer : OtaTimer)
  | stop (timer : OtaTimer)
  deriving DecidableEq, Repr

/-- The variables and kernel objects of `ota_update.c`, the boot selection in flash, and
    whether the device has restarted. -/
structure OtaShared where
  confirmationPending : Bool
  restartScheduled : Bool
  workerReady : Bool
  requestQueue : Option OtaAsyncRequest
  -- commands that the timer service has not processed yet
  timerCommands : List TimerCommand
  restartArmed : Bool
  confirmationArmed : Bool
  bootSelection : Option BootSelection
  restarted : Bool

namespace OtaShared

/-- The reply to a call: shared objects answer from their state, `xQueueReceive` blocks
    on an empty queue, and `answer` decides what ESP-IDF returns. -/
def reply (shared : OtaShared) (answer : (c : OtaCall) → c.Reply) : (c : OtaCall) → Option c.Reply
  | confirmationPendingGet => some shared.confirmationPending
  | restartScheduledGet => some shared.restartScheduled
  | restartScheduledTestAndSet => some !shared.restartScheduled
  | workerReadyTake => some shared.workerReady
  | requestQueueSend _ => some shared.requestQueue.isNone
  | requestQueueReceive => shared.requestQueue.map some
  | c => some (answer c)

/-- What a call does to the shared objects, given its reply. -/
def observe (shared : OtaShared) : OtaEvent → OtaShared
  | ⟨confirmationPendingSet pending, _⟩ => { shared with confirmationPending := pending }
  | ⟨restartScheduledTestAndSet, _⟩ => { shared with restartScheduled := true }
  | ⟨workerReadyTake, _⟩ => { shared with workerReady := false }
  | ⟨workerReadyGive, _⟩ => { shared with workerReady := true }
  | ⟨requestQueueSend asyncReq, sent⟩ =>
      if sent then { shared with requestQueue := some asyncReq } else shared
  | ⟨requestQueueReceive, _⟩ => { shared with requestQueue := none }
  | ⟨timerStart timer, posted⟩ =>
      if posted then { shared with timerCommands := shared.timerCommands ++ [.start timer] }
      else shared
  | ⟨timerStop timer, posted⟩ =>
      if posted then { shared with timerCommands := shared.timerCommands ++ [.stop timer] }
      else shared
  | ⟨espRestart, _⟩ => { shared with restarted := true }
  | ⟨otaSetBootPartition partition, err⟩ =>
      if err = espOk then { shared with bootSelection := some (.uploaded partition) } else shared
  | ⟨otaMarkAppInvalidRollback, err⟩ =>
      if err = espOk then { shared with bootSelection := some .rollback } else shared
  | _ => shared

def armed (shared : OtaShared) : OtaTimer → Bool
  | .restart => shared.restartArmed
  | .confirmation => shared.confirmationArmed

def arm (shared : OtaShared) (running : Bool) : OtaTimer → OtaShared
  | .restart => { shared with restartArmed := running }
  | .confirmation => { shared with confirmationArmed := running }

theorem arm_restartScheduled (shared : OtaShared) (running : Bool) (timer : OtaTimer) :
    (shared.arm running timer).restartScheduled = shared.restartScheduled := by
  cases timer <;> rfl

/-- The timer service processes one command. -/
def command (shared : OtaShared) : TimerCommand → OtaShared
  | .start timer => shared.arm true timer
  | .stop timer => shared.arm false timer

end OtaShared

/-- The registered handlers. -/
inductive OtaUri
  | flash
  | status
  | confirm
  | rollback
  deriving DecidableEq, Repr

def OtaUri.handler (req : HttpdReq) : OtaUri → OtaProgram EspErr
  | flash => otaFlashPostHandler req
  | status => otaStatusGetHandler
  | confirm => otaConfirmPostHandler
  | rollback => otaRollbackPostHandler

def OtaTimer.callback : OtaTimer → OtaProgram Unit
  | restart => otaRestartCallback
  | confirmation => otaConfirmationTimeoutCallback

/-- What remains of the handler that the HTTP server task is running. -/
structure Serving where
  uri : OtaUri
  program : OtaProgram EspErr

/-- Where `ota_worker_task` is in its loop. -/
inductive OtaWorker
  | giving
  | waiting
  | serving (program : OtaProgram WorkerRound)

structure OtaStack where
  shared : OtaShared
  httpd : Option Serving
  worker : OtaWorker
  timer : Option (OtaProgram Unit)

/-- After `ota_update_stack_init`, when the running image is or is not
    `ESP_OTA_IMG_PENDING_VERIFY`, and before the tasks run. -/
def OtaStack.initial (pendingVerify : Bool) : OtaStack where
  shared := {
    confirmationPending := pendingVerify
    restartScheduled := false
    workerReady := false
    requestQueue := none
    timerCommands := if pendingVerify then [.start .confirmation] else []
    restartArmed := false
    confirmationArmed := false
    bootSelection := none
    restarted := false }
  httpd := none
  worker := .giving
  timer := none

inductive OtaAction
  | request (uri : OtaUri) (req : HttpdReq)
  | httpd (answer : (c : OtaCall) → c.Reply)
  | worker (answer : (c : OtaCall) → c.Reply)
  | timerCommand
  | timerExpire (timer : OtaTimer)
  | timerCallback (answer : (c : OtaCall) → c.Reply)

inductive OtaParty
  | httpd (uri : OtaUri)
  | worker
  | timer
  deriving DecidableEq, Repr

/-- One call of a party, as the history records it. -/
structure OtaStep where
  party : OtaParty
  event : OtaEvent

namespace OtaStack

/-- One call of a party; `resume` is what it does with the reply. -/
def perform (s : OtaStack) (party : OtaParty) (answer : (c : OtaCall) → c.Reply) (c : OtaCall)
    (resume : c.Reply → OtaStack → OtaStack) : Option (OtaStack × List OtaStep) :=
  (s.shared.reply answer c).map fun reply =>
    (resume reply { s with shared := s.shared.observe ⟨c, reply⟩ }, [⟨party, ⟨c, reply⟩⟩])

def next (s : OtaStack) (action : OtaAction) : Option (OtaStack × List OtaStep) :=
  if s.shared.restarted then none
  else match action with
  | .request uri req =>
      match s.httpd with
      | none => some ({ s with httpd := some ⟨uri, uri.handler req⟩ }, [])
      | some _ => none
  | .httpd answer =>
      match s.httpd with
      | none => none
      | some ⟨_, .done _⟩ => some ({ s with httpd := none }, [])
      | some ⟨uri, .call c later⟩ =>
          s.perform (.httpd uri) answer c fun reply s => { s with httpd := some ⟨uri, later reply⟩ }
  | .worker answer =>
      match s.worker with
      | .giving => s.perform .worker answer workerReadyGive fun _ s => { s with worker := .waiting }
      | .waiting =>
          s.perform .worker answer requestQueueReceive fun received s =>
            match received with
            | some asyncReq => { s with worker := .serving (otaWorkerServe asyncReq) }
            | none => { s with worker := .giving }
      | .serving (.done _) => some ({ s with worker := .giving }, [])
      | .serving (.call c later) =>
          s.perform .worker answer c fun reply s => { s with worker := .serving (later reply) }
  | .timerCommand =>
      match s.timer, s.shared.timerCommands with
      | none, command :: rest =>
          some ({ s with shared := { s.shared with timerCommands := rest }.command command }, [])
      | _, _ => none
  | .timerExpire timer =>
      match s.timer, s.shared.armed timer with
      | none, true =>
          some ({ s with timer := some timer.callback, shared := s.shared.arm false timer }, [])
      | _, _ => none
  | .timerCallback answer =>
      match s.timer with
      | none => none
      | some (.done _) => some ({ s with timer := none }, [])
      | some (.call c later) =>
          s.perform .timer answer c fun reply s => { s with timer := some (later reply) }

end OtaStack

def otaSystem (pendingVerify : Bool) : System OtaStack OtaAction OtaStep :=
  System.ofFunction (.initial pendingVerify) OtaStack.next

inductive OtaTransition (s : OtaStack) : OtaAction → OtaStack → List OtaStep → Prop
  | request {uri req} : s.httpd = none →
      OtaTransition s (.request uri req) { s with httpd := some ⟨uri, uri.handler req⟩ } []
  | handled {answer uri err} : s.httpd = some ⟨uri, .done err⟩ →
      OtaTransition s (.httpd answer) { s with httpd := none } []
  | handles {answer uri c later reply} : s.httpd = some ⟨uri, .call c later⟩ →
      s.shared.reply answer c = some reply →
      OtaTransition s (.httpd answer)
        { s with shared := s.shared.observe ⟨c, reply⟩, httpd := some ⟨uri, later reply⟩ }
        [⟨.httpd uri, ⟨c, reply⟩⟩]
  | gives {answer} : s.worker = .giving →
      OtaTransition s (.worker answer)
        { s with shared := s.shared.observe ⟨workerReadyGive, ()⟩, worker := .waiting }
        [⟨.worker, ⟨workerReadyGive, ()⟩⟩]
  | receives {answer asyncReq} : s.worker = .waiting → s.shared.requestQueue = some asyncReq →
      OtaTransition s (.worker answer)
        { s with
          shared := s.shared.observe ⟨requestQueueReceive, some asyncReq⟩
          worker := .serving (otaWorkerServe asyncReq) }
        [⟨.worker, ⟨requestQueueReceive, some asyncReq⟩⟩]
  | served {answer round} : s.worker = .serving (.done round) →
      OtaTransition s (.worker answer) { s with worker := .giving } []
  | serves {answer c later reply} : s.worker = .serving (.call c later) →
      s.shared.reply answer c = some reply →
      OtaTransition s (.worker answer)
        { s with shared := s.shared.observe ⟨c, reply⟩, worker := .serving (later reply) }
        [⟨.worker, ⟨c, reply⟩⟩]
  | command {command rest} : s.timer = none → s.shared.timerCommands = command :: rest →
      OtaTransition s .timerCommand
        { s with shared := { s.shared with timerCommands := rest }.command command } []
  | expires {timer} : s.timer = none → s.shared.armed timer = true →
      OtaTransition s (.timerExpire timer)
        { s with timer := some timer.callback, shared := s.shared.arm false timer } []
  | returned {answer} : s.timer = some (.done ()) →
      OtaTransition s (.timerCallback answer) { s with timer := none } []
  | calls {answer c later reply} : s.timer = some (.call c later) →
      s.shared.reply answer c = some reply →
      OtaTransition s (.timerCallback answer)
        { s with shared := s.shared.observe ⟨c, reply⟩, timer := some (later reply) }
        [⟨.timer, ⟨c, reply⟩⟩]

theorem perform_eq_some {s : OtaStack} {party answer c resume s' events}
    (performed : s.perform party answer c resume = some (s', events)) :
    ∃ reply, s.shared.reply answer c = some reply ∧
      s' = resume reply { s with shared := s.shared.observe ⟨c, reply⟩ } ∧
      events = [⟨party, ⟨c, reply⟩⟩] := by
  obtain ⟨reply, replied, same⟩ := Option.map_eq_some_iff.mp performed
  obtain ⟨rfl, rfl⟩ := Prod.mk.inj same
  exact ⟨reply, replied, rfl, rfl⟩

theorem OtaTransition.of_next {s : OtaStack} {action s' events}
    (step : s.next action = some (s', events)) :
    s.shared.restarted = false ∧ OtaTransition s action s' events := by
  unfold OtaStack.next at step
  split at step
  · cases step
  rename_i running
  refine ⟨Bool.eq_false_of_not_eq_true running, ?_⟩
  cases action with
  | request uri req =>
      dsimp only at step
      split at step
      · rename_i idle
        cases step
        exact .request idle
      · cases step
  | httpd answer =>
      dsimp only at step
      split at step
      · cases step
      · rename_i finished
        cases step
        exact .handled finished
      · rename_i running
        obtain ⟨reply, replied, rfl, rfl⟩ := perform_eq_some step
        exact .handles running replied
  | worker answer =>
      dsimp only at step
      split at step
      · rename_i giving
        obtain ⟨reply, -, rfl, rfl⟩ := perform_eq_some step
        exact .gives giving
      · rename_i waiting
        obtain ⟨reply, replied, rfl, rfl⟩ := perform_eq_some step
        obtain ⟨asyncReq, queued, rfl⟩ := Option.map_eq_some_iff.mp replied
        exact .receives waiting queued
      · rename_i finished
        cases step
        exact .served finished
      · rename_i running
        obtain ⟨reply, replied, rfl, rfl⟩ := perform_eq_some step
        exact .serves running replied
  | timerCommand =>
      dsimp only at step
      split at step
      · rename_i idle queued
        cases step
        exact .command idle queued
      · cases step
  | timerExpire timer =>
      dsimp only at step
      split at step
      · rename_i idle armed
        cases step
        exact .expires idle armed
      · cases step
  | timerCallback answer =>
      dsimp only at step
      split at step
      · cases step
      · rename_i finished
        cases step
        exact .returned finished
      · rename_i running
        obtain ⟨reply, replied, rfl, rfl⟩ := perform_eq_some step
        exact .calls running replied

theorem OtaTransition.pairwise {s : OtaStack} {action s' events}
    (step : OtaTransition s action s' events) (R : OtaStep → OtaStep → Prop) :
    events.Pairwise R := by
  cases step with
  | handles | gives | receives | serves | calls => exact List.pairwise_singleton R _
  | _ => exact .nil

end EspGnss.Ota
