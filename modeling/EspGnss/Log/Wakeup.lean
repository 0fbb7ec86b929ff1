import EspGnss.Log.Stack

/-! # No lost wakeup of the log worker

A task that logs stores its line and then notifies the worker; the worker copies and
waits when there was nothing to copy.
-/

namespace EspGnss.Log

open Foundation LogCall

/-- The calls of capturing a line. -/
def captures : LogCall → Bool
  | vsnprintf | ringAppend _ | workerHandle | notifyGive | previousVprintf => true
  | _ => false

/-- The calls of a task. -/
def LogTask.makes : LogTask → LogCall → Bool
  | logger _, c => captures c
  | httpd, c =>
      match c with
      | requestReceive | asyncHandlerBegin _ | asyncHandlerComplete _ => true
      | workerReadyTake | workerReadyGive | requestQueueSend _ => true
      | respSetStatus _ _ | respSetType _ _ | respSendstr _ _ => true
      | _ => false
  | worker, c =>
      captures c || match c with
      | workerReadyGive | requestQueueReceive | asyncHandlerComplete _ | espLogEnabled => true
      | respSetType _ _ | respSetHdr _ _ _ | respSendChunk _ _ | reqToSockfd _ | recvPeek _ => true
      | notifyTake _ | ringOldest | ringCopy _ => true
      | _ => false

/-- Watches whether a task that logs has still to notify the worker. -/
@[simps] def owingMonitor : Monitor LogCall.Reply Bool where
  allows owing c := captures c ∧ (owing = true → c = workerHandle ∨ c = notifyGive)
  observe owing
    | ⟨ringAppend _, _⟩ => true
    | ⟨workerHandle, handle⟩ => owing && handle
    | ⟨notifyGive, _⟩ => false
    | _ => owing

/-- Watches whether the worker has found nothing to copy; then it waits. -/
@[simps] def checkMonitor : Monitor LogCall.Reply Bool where
  allows checked c := LogTask.worker.makes c ∧ (checked = true ↔ c = notifyTake .disconnectCheck)
  observe checked
    | ⟨ringCopy _, copied⟩ => copied.chunk = []
    | ⟨notifyTake _, _⟩ => false
    | _ => checked

theorem loggingRound_notifies :
    loggingRound.Meets owingMonitor (fun owing round => round = .logging ∧ owing = false) false := by
  simp [loggingRound, logCaptureVprintf, captures]

theorem espLog_checks {post : Bool → Unit → Prop} (ends : post false ()) :
    espLog.Meets checkMonitor post false := by
  simp [espLog, logCaptureVprintf, LogTask.makes, captures, ends]

theorem readyRound_checks :
    readyRound.Meets checkMonitor (fun checked round => LogTask.worker.runs round ∧ checked = false) false := by
  simp [readyRound, LogTask.makes]
  intro received
  cases received with
  | none => simp
  | some asyncReq =>
      simp only [CallTree.meets_bind]
      apply espLog_checks
      simp [LogTask.makes]

theorem sendingRound_checks (asyncReq : LogAsyncRequest) (lastSent : UInt32) :
    (sendingRound asyncReq lastSent).Meets checkMonitor
      (fun checked round => LogTask.worker.runs round ∧ checked = false) false := by
  have finishes : (logFinish asyncReq).Meets checkMonitor
      (fun checked round => LogTask.worker.runs round ∧ checked = false) false := by
    rw [logFinish, CallTree.meets_bind]
    apply espLog_checks
    simp [LogTask.makes]
    exact fun _ _ => espLog_checks (by simp)
  simp [sendingRound, logClientIsConnected, LogTask.makes]
  intro copied
  by_cases nothing : copied.chunk = []
  · simp [nothing, finishes]
  · have some : 0 < copied.chunk.length := List.length_pos_iff.mpr nothing
    simp [nothing, some, finishes]

abbrev WakeGhost : LogTask → Type
  | .worker | .logger _ => Bool
  | .httpd => Unit

def WakeGhost.initial : (t : LogTask) → WakeGhost t
  | .worker | .logger _ => false
  | .httpd => ()

def wakeOutline : Outline LogTask LogCall.Reply LogRound WakeGhost where
  observe
    | .worker => checkMonitor.observe
    | .logger _ => owingMonitor.observe
    | .httpd => fun _ _ => ()
  allows
    | .worker, _ => checkMonitor.allows
    | .logger _, _ => owingMonitor.allows
    | .httpd, _ => fun _ c => LogTask.httpd.makes c
  head
    | .worker, round, checked => LogTask.worker.runs round ∧ checked = false
    | .logger _, round, owing => round = .logging ∧ owing = false
    | .httpd, round, _ => round = .httpd

theorem httpdRound_makes :
    httpdRound.Meets (Monitor.calls (LogTask.httpd.makes · = true)) (fun _ round => round = .httpd) () := by
  simp [httpdRound, logGetHandler, logRequestQueue, LogTask.makes]

theorem wake_keeps {t : LogTask} {round : LogRound} {ghost : WakeGhost t}
    (head : wakeOutline.head t round ghost) : wakeOutline.Keeps t (logTasks.begin t round) ghost := by
  cases t with
  | worker =>
      obtain ⟨runs, rfl⟩ := head
      cases round with
      | ready => exact readyRound_checks
      | sending asyncReq lastSent => exact sendingRound_checks asyncReq lastSent
      | httpd | logging => cases runs
  | logger index =>
      obtain ⟨rfl, rfl⟩ := head
      exact loggingRound_notifies
  | httpd =>
      obtain rfl : round = .httpd := head
      exact httpdRound_makes

/-- The task has stored a line and has still to notify the worker. -/
def LoggerOwes (index : Nat) (history : List LogStep) : Prop :=
  Since (fun step => step.task = .logger index ∧ ∃ line, step.event.call = ringAppend line)
    (fun step => step.task = .logger index ∧ step.event.call = notifyGive) history

/-- What a step leaves in the variable `last_sent` of `log_response_send`. -/
def lastSentAfter (lastSent : UInt32) (step : LogStep) : UInt32 :=
  match step.event with
  | ⟨ringOldest, oldest⟩ => oldest
  | ⟨ringCopy _, copied⟩ => copied.lastSent
  | ⟨respSendChunk _ chunk, err⟩ => if err = espOk then lastSent + .ofNat chunk.length else lastSent
  | _ => lastSent

/-- The variable `last_sent`. -/
def lastSent (history : List LogStep) : UInt32 := history.foldl lastSentAfter 0

/-- A worker that has found nothing to copy and has no notification has sent everything,
    unless a task that logs has still to notify it. -/
structure LogWoken (history : List LogStep) (shared : LogShared) (checked : Bool) (owing : Nat → Bool) : Prop where
  handle : shared.workerHandle = true
  owed : ∀ index, owing index = true → LoggerOwes index history
  seen : checked = true → shared.notifications = 0 → shared.ring.writeTotal ≠ lastSent history →
    ∃ index, owing index = true

/-- The calls that change what the worker is woken for. -/
def wakes : LogCall → Bool
  | ringAppend _ | notifyGive | notifyTake _ | ringOldest | ringCopy _ | respSendChunk _ _ => true
  | _ => false

theorem observe_ring {shared : LogShared} {event : LogEvent} (quiet : wakes event.call = false) :
    (shared.observe event).ring = shared.ring ∧ (shared.observe event).notifications = shared.notifications := by
  obtain ⟨c, reply⟩ := event
  cases c with
  | ringAppend _ | notifyGive | notifyTake _ => cases quiet
  | requestQueueSend asyncReq => cases reply <;> exact ⟨rfl, rfl⟩
  | _ => exact ⟨rfl, rfl⟩

theorem observe_handle (shared : LogShared) (event : LogEvent) :
    (shared.observe event).workerHandle = shared.workerHandle := by
  obtain ⟨c, reply⟩ := event
  cases c with
  | requestQueueSend asyncReq => cases reply <;> rfl
  | _ => rfl

theorem lastSent_snoc (history : List LogStep) (step : LogStep) :
    lastSent (history ++ [step]) = lastSentAfter (lastSent history) step := by
  rw [lastSent, List.foldl_append]
  rfl

section Steps

variable {history : List LogStep} {shared : LogShared} {checked : Bool} {owing : Nat → Bool}
  {answer : (c : LogCall) → c.Reply} {c : LogCall} {reply : c.Reply}

theorem LogWoken.quiet {t : LogTask} (woken : LogWoken history shared checked owing) (quiet : wakes c = false) :
    LogWoken (history ++ [⟨t, ⟨c, reply⟩⟩]) (shared.observe ⟨c, reply⟩) checked owing := by
  obtain ⟨ring, notifications⟩ := @observe_ring shared ⟨c, reply⟩ quiet
  have same : lastSentAfter (lastSent history) ⟨t, ⟨c, reply⟩⟩ = lastSent history := by
    cases c with
    | ringOldest | ringCopy | respSendChunk => cases quiet
    | _ => rfl
  constructor
  · rw [observe_handle]
    exact woken.handle
  · intro index owes
    apply (woken.owed index owes).snoc
    rintro ⟨-, rfl⟩
    cases quiet
  · rw [ring, notifications, lastSent_snoc, same]
    exact woken.seen

theorem LogWoken.logs {index : Nat} (woken : LogWoken history shared checked owing)
    (allowed : owingMonitor.allows (owing index) c) (replied : shared.reply answer c = some reply) :
    LogWoken (history ++ [⟨.logger index, ⟨c, reply⟩⟩]) (shared.observe ⟨c, reply⟩) checked
      (Function.update owing index (owingMonitor.observe (owing index) ⟨c, reply⟩)) := by
  cases c with
  | ringAppend line =>
      refine ⟨woken.handle, fun other owes => ?_, fun _ _ _ => ⟨index, by simp⟩⟩
      rcases Decidable.eq_or_ne other index with rfl | apart
      · exact since_opened ⟨rfl, line, rfl⟩
      · rw [Function.update_of_ne apart] at owes
        exact (woken.owed other owes).snoc (by simp)
  | workerHandle =>
      obtain rfl : true = reply := woken.handle.symm.trans (Option.some.inj replied)
      have same : owingMonitor.observe (owing index) ⟨workerHandle, true⟩ = owing index := by simp
      rw [same, Function.update_eq_self]
      exact woken.quiet rfl
  | notifyGive =>
      refine ⟨woken.handle, fun other owes => ?_, fun _ unnotified => ?_⟩
      · have apart : other ≠ index := by
          rintro rfl
          rw [Function.update_self] at owes
          cases owes
        rw [Function.update_of_ne apart] at owes
        apply (woken.owed other owes).snoc
        rintro ⟨same, -⟩
        cases same
        exact apart rfl
      · simp [LogShared.observe] at unnotified
  | vsnprintf | previousVprintf =>
      have same : owingMonitor.observe (owing index) ⟨_, reply⟩ = owing index := rfl
      rw [same, Function.update_eq_self]
      exact woken.quiet rfl
  | _ => cases allowed.1

/-- While it is busy, nothing is asked of the worker. -/
theorem LogWoken.busy (woken : LogWoken history shared checked owing) :
    LogWoken (history ++ [⟨.worker, ⟨c, reply⟩⟩]) (shared.observe ⟨c, reply⟩) false owing := by
  constructor
  · rw [observe_handle]
    exact woken.handle
  · intro index owes
    exact (woken.owed index owes).snoc (by simp)
  · intro found
    cases found

theorem LogWoken.works (woken : LogWoken history shared checked owing)
    (allowed : checkMonitor.allows checked c) (replied : shared.reply answer c = some reply) :
    LogWoken (history ++ [⟨.worker, ⟨c, reply⟩⟩]) (shared.observe ⟨c, reply⟩)
      (checkMonitor.observe checked ⟨c, reply⟩) owing := by
  cases c with
  | ringCopy start =>
      obtain rfl := Option.some.inj replied
      by_cases nothing : (shared.ring.copy start).chunk = []
      · refine { woken.busy with seen := fun _ _ behind => ?_ }
        rw [lastSent_snoc] at behind
        exact absurd (LogRing.copy_nothing nothing).symm behind
      · have same : checkMonitor.observe checked ⟨ringCopy start, shared.ring.copy start⟩ = false := by
          simp [nothing]
        rw [same]
        exact woken.busy
  | notifyTake wait => exact woken.busy
  | ringAppend | notifyGive | ringOldest | respSendChunk =>
      obtain rfl : checked = false := by simpa using allowed.2
      exact woken.busy
  | _ => exact woken.quiet rfl

theorem LogWoken.serves (woken : LogWoken history shared checked owing) (made : LogTask.httpd.makes c) :
    LogWoken (history ++ [⟨.httpd, ⟨c, reply⟩⟩]) (shared.observe ⟨c, reply⟩) checked owing := by
  cases c with
  | ringAppend | notifyGive | notifyTake | ringOldest | ringCopy | respSendChunk => cases made
  | _ => exact woken.quiet rfl

end Steps

theorem logger_injective : Function.Injective LogTask.logger := by
  intro index other same
  cases same
  rfl

theorem logWoken_of_exec {early : List (List UInt8)} {history s} (run : (logSystem early).Exec history s) :
    ∃ ghosts : (t : LogTask) → WakeGhost t,
      LogWoken history s.shared (ghosts .worker) (fun index => ghosts (.logger index)) ∧
        ∀ t, wakeOutline.Keeps t (s.task t) (ghosts t) := by
  have heads (t : LogTask) : wakeOutline.head t t.start (WakeGhost.initial t) := by
    cases t with
    | worker | logger => exact ⟨rfl, rfl⟩
    | httpd => rfl
  refine Tasks.invariant_of_outline
    (I := fun history shared ghosts =>
      LogWoken history shared (ghosts .worker) (fun index => ghosts (.logger index)))
    (fun t round ghost head => wake_keeps head) heads ?_ ?_ run
  · exact ⟨rfl, by simp [WakeGhost.initial], by simp [WakeGhost.initial]⟩
  · intro history shared ghosts t round c answer reply woken allowed replied
    cases t with
    | logger index =>
        have logged := woken.logs allowed replied
        have moved := Function.update_comp_eq_of_injective' ghosts logger_injective index
          (owingMonitor.observe (ghosts (.logger index)) ⟨c, reply⟩)
        simp only [ne_eq, reduceCtorEq, not_false_eq_true, Function.update_of_ne]
        exact moved ▸ logged
    | worker =>
        simp only [ne_eq, reduceCtorEq, not_false_eq_true, Function.update_of_ne, Function.update_self]
        exact woken.works allowed replied
    | httpd =>
        simp only [ne_eq, reduceCtorEq, not_false_eq_true, Function.update_of_ne]
        exact woken.serves allowed

/-- When the worker waits for more while it serves a client, has no notification and has not
    sent everything, a task that logs is between storing its line and notifying the worker. -/
def LogWakesUp (history : List LogStep) (s : LogStack) : Prop :=
  (s.task .worker).program.head? = some (notifyTake .disconnectCheck) →
    s.shared.notifications = 0 → s.shared.ring.writeTotal ≠ lastSent history →
      ∃ index, LoggerOwes index history ∧ ∃ c,
        (s.task (.logger index)).program.head? = some c ∧ (c = workerHandle ∨ c = notifyGive)

theorem log_wakes_up {early : List (List UInt8)} {history s} (run : (logSystem early).Exec history s) :
    LogWakesUp history s := by
  intro blocked unnotified behind
  obtain ⟨ghosts, woken, keeps⟩ := logWoken_of_exec run
  have waits := (keeps .worker).head? blocked
  obtain ⟨index, owes⟩ := woken.seen (waits.2.mpr rfl) unnotified behind
  have unfinished (round : LogRound) : ¬(round = .logging ∧ ghosts (.logger index) = false) := by
    rintro ⟨-, settled⟩
    cases owes.symm.trans settled
  obtain ⟨c, about, allowed⟩ := (keeps (.logger index)).running unfinished
  exact ⟨index, woken.owed index owes, c, about, allowed.2 owes⟩

end EspGnss.Log
