import EspGnss.Ota.Decision

/-! # A boot decision is followed by a restart

Whoever decides what boots next schedules the restart, or restarts the device itself where the
timer does not start. There is no other way to a restart, but for an image that is not confirmed.
-/

namespace EspGnss.Ota

open Foundation OtaCall

/-- What a program still has to do that has decided what boots. -/
inductive Debt where
  | clear
  /-- It has to set `s_restart_scheduled`. -/
  | decided
  /-- It was the first to set it and has to start the timer. -/
  | granted
  /-- The timer did not start, so that it has to restart the device itself. -/
  | refused
  deriving DecidableEq

namespace Debt

@[simp] def after (debt : Debt) : OtaEvent → Debt
  | ⟨restartScheduledTestAndSet, first⟩ => if first then granted else clear
  | ⟨timerStart _, started⟩ => if started then clear else refused
  | ⟨espRestart, _⟩ => clear
  | event => if decides event then decided else debt

@[simp] def Permits (debt : Debt) : OtaCall → Prop
  | restartScheduledTestAndSet => debt = decided
  | timerStart timer => timer = .restart ∧ debt = granted
  | timerStop timer => timer = .confirmation
  | espRestart => debt = refused
  | otaSetBootPartition _ | otaMarkAppInvalidRollback => debt = clear
  | _ => True

end Debt

@[simps] def debtMonitor : Monitor OtaCall.Reply Debt := ⟨Debt.Permits, Debt.after⟩

/-- A program that starts with a debt and ends without. -/
abbrev Pays {α : Type} (debt : Debt) (program : OtaProgram α) : Prop :=
  program.Meets debtMonitor (fun debt _ => debt = .clear) debt

/-- Whatever the program gets for answers, it has to see to the restart. -/
def Owes {α : Type} (program : OtaProgram α) : Prop := ∃ debt, debt ≠ .clear ∧ Pays debt program

theorem otaRequestQueue_pays (req : HttpdReq) (updatePartition : EspPartition) (sha256 : Sha256) :
    Pays .clear (otaRequestQueue req updatePartition sha256) := by
  simp [otaRequestQueue, decides]

theorem otaFlashPostHandler_pays (req : HttpdReq) : Pays .clear (otaFlashPostHandler req) := by
  unfold otaFlashPostHandler otaSha256HeaderParse
  simp [decides]
  intro nonempty header ok
  cases otaSha256Parse header.value with
  | none => simp [decides]
  | some sha256 =>
      refine ⟨trivial, ?_⟩
      intro updatePartition
      cases updatePartition with
      | none => exact ⟨trivial, fun sent => rfl⟩
      | some updatePartition =>
          change CallTree.Meets _ _ _ (if req.contentLen > updatePartition.size then _ else _)
          split
          · simp [decides]
          · apply CallTree.meets_bind.mpr
            apply (otaRequestQueue_pays req updatePartition sha256).mono
            rintro debt err rfl
            simp [decides]

theorem handler_pays (req : HttpdReq) (uri : OtaUri) : Pays .clear (uri.handler req) := by
  cases uri with
  | flash => exact otaFlashPostHandler_pays req
  | status => simp [OtaUri.handler, otaStatusGetHandler, decides]
  | confirm => simp [OtaUri.handler, otaConfirmPostHandler, decides]
  | rollback => simp [OtaUri.handler, otaRollbackPostHandler, otaRestartSchedule, decides]

/-- A round of the worker owes a restart exactly when it is required. -/
theorem otaFlashReceiveVerify_debt (asyncReq : OtaAsyncRequest) (otaHandle : Nat) (result : EspErr) :
    (otaFlashReceiveVerify asyncReq otaHandle result).Meets debtMonitor
      (fun debt ending => debt = if ending.restartRequired then .decided else .clear) .clear := by
  simp [otaFlashReceiveVerify, decides]

theorem otaFlashReceive_debt (asyncReq : OtaAsyncRequest) : (otaFlashReceive asyncReq).Meets debtMonitor
    (fun debt ending => debt = if ending.2 then .decided else .clear) .clear := by
  unfold otaFlashReceive otaFlashReceiveBody
  simp [decides]
  intro reply begun
  apply (otaReceiveLoop_keeps (I := (· = .clear)) _ rfl).mono
  · rintro debt ending rfl
    split
    · exact otaFlashReceiveVerify_debt asyncReq reply.otaHandle ending.1
    · rfl
  · rintro debt c rfl inLoop
    cases c with
    | reqRecv | psaHashUpdate | respSendstr | otaWrite => exact ⟨trivial, by simp [decides]⟩
    | _ => exact inLoop.elim

theorem otaWorkerServe_pays (asyncReq : OtaAsyncRequest) : Pays .clear (otaWorkerServe asyncReq) := by
  simp only [otaWorkerServe, Pays, CallTree.meets_bind, CallTree.meets_perform]
  refine ⟨trivial, fun socketFd => (otaFlashReceive_debt asyncReq).mono ?_⟩
  rintro debt ⟨result, restartRequired⟩ rfl
  cases restartRequired <;>
    simp [otaWorkerFinish, otaRestartSchedule, decides]

/-- The timer service is going to restart the device. -/
def TimerRestarts (shared : OtaShared) (timer : Option (OtaProgram Unit)) : Prop :=
  .start .restart ∈ shared.timerCommands ∨ shared.restartArmed = true ∨ timer = some otaRestartCallback

/-- The program was the first to set `s_restart_scheduled`. -/
def Debt.Acts (debt : Debt) : Prop := debt = granted ∨ debt = refused

/-- What follows from `decided`, that a decision has been taken, while one program has the debt
    `mine` and the other the debt `other`. -/
structure Account (pendingVerify : Bool) (decided : Prop) (shared : OtaShared) (timer : Option (OtaProgram Unit))
    (mine other : Debt) : Prop where
  owed : mine ≠ .clear ∨ other ≠ .clear → decided
  scheduled : decided → shared.restartScheduled = true ∨ mine = .decided ∨ other = .decided
  known : shared.restartScheduled = true → decided
  underway : shared.restartScheduled = true →
    shared.restarted = true ∨ mine.Acts ∨ other.Acts ∨ TimerRestarts shared timer
  starts : .start .restart ∈ shared.timerCommands ∨ shared.restartArmed = true → decided
  unstopped : .stop .restart ∉ shared.timerCommands
  callback : ∀ program, timer = some program →
    (decided ∨ pendingVerify = true ∨ program = .done ()) ∧ program.Avoids fun c => ¬InCallback c
  confirmation : .start .confirmation ∈ shared.timerCommands ∨ shared.confirmationArmed = true → pendingVerify = true

variable {pendingVerify : Bool} {decided : Prop} {shared : OtaShared} {timer : Option (OtaProgram Unit)}
  {mine other : Debt}

theorem Account.comm (account : Account pendingVerify decided shared timer mine other) :
    Account pendingVerify decided shared timer other mine := by
  obtain ⟨owed, scheduled, known, underway, starts, unstopped, callback, confirmation⟩ := account
  refine ⟨fun debts => owed debts.symm, fun taken => (scheduled taken).imp_right .symm, known, ?_, starts, unstopped,
    callback, confirmation⟩
  grind

/-- The first program that sets `s_restart_scheduled` has to act. -/
theorem Account.claims (account : Account pendingVerify decided shared timer .decided other) :
    Account pendingVerify decided { shared with restartScheduled := true } timer
      (if shared.restartScheduled then .clear else .granted) other := by
  obtain ⟨owed, scheduled, known, underway, starts, unstopped, callback, confirmation⟩ := account
  cases before : shared.restartScheduled <;>
    refine ⟨?_, ?_, ?_, ?_, starts, unstopped, callback, confirmation⟩ <;> grind [TimerRestarts, Debt.Acts]

theorem Account.starts_timer (account : Account pendingVerify decided shared timer .granted other) :
    Account pendingVerify decided { shared with timerCommands := shared.timerCommands ++ [.start .restart] } timer
      .clear other := by
  obtain ⟨owed, scheduled, known, underway, starts, unstopped, callback, confirmation⟩ := account
  refine ⟨?_, ?_, ?_, ?_, ?_, ?_, callback, ?_⟩ <;> grind [TimerRestarts]

theorem Account.refused_timer (account : Account pendingVerify decided shared timer .granted other) :
    Account pendingVerify decided shared timer .refused other := by
  obtain ⟨owed, scheduled, known, underway, starts, unstopped, callback, confirmation⟩ := account
  refine ⟨?_, ?_, known, ?_, starts, unstopped, callback, confirmation⟩ <;> grind [Debt.Acts]

theorem Account.stops_timer (account : Account pendingVerify decided shared timer mine other) :
    Account pendingVerify decided { shared with timerCommands := shared.timerCommands ++ [.stop .confirmation] } timer
      mine other := by
  obtain ⟨owed, scheduled, known, underway, starts, unstopped, callback, confirmation⟩ := account
  refine ⟨owed, scheduled, known, ?_, ?_, ?_, callback, ?_⟩ <;> grind [TimerRestarts]

theorem Account.restarts (account : Account pendingVerify decided shared timer .refused other) :
    Account pendingVerify decided { shared with restarted := true } timer .clear other := by
  obtain ⟨owed, scheduled, known, underway, starts, unstopped, callback, confirmation⟩ := account
  refine ⟨?_, ?_, known, ?_, starts, unstopped, callback, confirmation⟩ <;> grind

theorem Account.selects (account : Account pendingVerify decided shared timer .clear other)
    {bootSelection : Option BootSelection} :
    Account pendingVerify True { shared with bootSelection } timer .decided other := by
  obtain ⟨owed, scheduled, known, underway, starts, unstopped, callback, confirmation⟩ := account
  refine ⟨?_, ?_, ?_, ?_, ?_, unstopped, ?_, confirmation⟩ <;> grind [TimerRestarts, Debt.Acts]

/-- A call that a program may make with its debt. -/
theorem Account.pays (account : Account pendingVerify decided shared timer mine other) {answer c} {reply : c.Reply}
    (allowed : mine.Permits c) (replied : shared.reply answer c = some reply) :
    Account pendingVerify (decided ∨ decides ⟨c, reply⟩ = true) (shared.observe ⟨c, reply⟩) timer
      (mine.after ⟨c, reply⟩) other := by
  cases c with
  | restartScheduledTestAndSet =>
      obtain rfl : mine = .decided := allowed
      obtain rfl : (!shared.restartScheduled) = reply := Option.some.inj replied
      have claimed := account.claims
      cases before : shared.restartScheduled <;>
        simpa [decides, OtaShared.observe, before] using claimed
  | timerStart started =>
      obtain ⟨rfl, rfl⟩ : started = .restart ∧ mine = .granted := allowed
      cases reply with
      | true => simpa [decides, OtaShared.observe] using account.starts_timer
      | false => simpa [decides, OtaShared.observe] using account.refused_timer
  | timerStop stopped =>
      obtain rfl : stopped = .confirmation := allowed
      cases reply with
      | true => simpa [decides, OtaShared.observe] using account.stops_timer
      | false => simpa [decides, OtaShared.observe] using account
  | espRestart =>
      obtain rfl : mine = .refused := allowed
      simpa [decides, OtaShared.observe] using account.restarts
  | otaSetBootPartition | otaMarkAppInvalidRollback =>
      obtain rfl : mine = .clear := allowed
      by_cases ok : reply = espOk
      · simpa [decides, OtaShared.observe, ok] using account.selects
      · simpa [decides, OtaShared.observe, ok] using account
  | requestQueueSend =>
      obtain ⟨owed, scheduled, known, underway, starts, unstopped, callback, confirmation⟩ := account
      cases reply <;>
        simpa [decides] using
          ⟨owed, scheduled, known, underway, starts, unstopped, callback, confirmation⟩
  | _ =>
      obtain ⟨owed, scheduled, known, underway, starts, unstopped, callback, confirmation⟩ := account
      simpa [decides] using
        ⟨owed, scheduled, known, underway, starts, unstopped, callback, confirmation⟩

theorem Account.command (account : Account pendingVerify decided shared none mine other) {command rest}
    (queued : shared.timerCommands = command :: rest) :
    Account pendingVerify decided ({ shared with timerCommands := rest }.command command) none mine other := by
  obtain ⟨owed, scheduled, known, underway, starts, unstopped, callback, confirmation⟩ := account
  rw [queued] at starts unstopped confirmation
  cases command with
  | start which =>
      cases which <;>
        refine ⟨owed, scheduled, known, ?_, ?_, ?_, callback, ?_⟩ <;>
        grind [OtaShared.command, OtaShared.arm, TimerRestarts]
  | stop which =>
      cases which <;>
        refine ⟨owed, scheduled, known, ?_, ?_, ?_, callback, ?_⟩ <;>
        grind [OtaShared.command, OtaShared.arm, TimerRestarts]

theorem Account.expires (account : Account pendingVerify decided shared none mine other) {which : OtaTimer}
    (armed : shared.armed which = true) :
    Account pendingVerify decided (shared.arm false which) (some which.callback) mine other := by
  have avoids := callback_avoids which
  obtain ⟨owed, scheduled, known, underway, starts, unstopped, callback, confirmation⟩ := account
  cases which <;>
    refine ⟨owed, scheduled, known, ?_, ?_, unstopped, ?_, ?_⟩ <;>
    grind [OtaShared.arm, OtaShared.armed, TimerRestarts, OtaTimer.callback]

theorem Account.calls {c later} {reply : c.Reply}
    (account : Account pendingVerify decided shared (some (.call c later)) mine other) :
    Account pendingVerify (decided ∨ decides ⟨c, reply⟩ = true) (shared.observe ⟨c, reply⟩) (some (later reply)) mine
      other := by
  obtain ⟨owed, scheduled, known, underway, starts, unstopped, callback, confirmation⟩ := account
  obtain ⟨reason, inCallback, onward⟩ := callback _ rfl
  have reasonLeft : decided ∨ pendingVerify = true := by
    rcases reason with taken | pending | ended
    · exact .inl taken
    · exact .inr pending
    · cases ended
  have onward := onward reply
  cases c with
  | confirmationPendingGet =>
      -- the confirmation callback, which has not decided yet
      have other : CallTree.call confirmationPendingGet later ≠ otaRestartCallback := nofun
      constructor <;> grind [decides, OtaShared.observe, TimerRestarts]
  | espRestart => constructor <;> grind [decides, OtaShared.observe, TimerRestarts]
  | _ => exact absurd id inCallback

/-- The account together with what the handler and the worker are in the middle of. -/
structure Followed (pendingVerify : Bool) (history : List OtaStep) (s : OtaStack) (handler worker : Debt) : Prop where
  account : Account pendingVerify (Decided history) s.shared s.timer handler worker
  idle : s.httpd = none → handler = .clear
  handles : ∀ serving, s.httpd = some serving → Pays handler serving.program
  rests : (∀ program, s.worker ≠ .serving program) → worker = .clear
  serves : ∀ program, s.worker = .serving program → Pays worker program

theorem Followed.step {history : List OtaStep} {s action s' events} {handler worker : Debt}
    (followed : Followed pendingVerify history s handler worker) (step : OtaTransition s action s' events) :
    ∃ handler worker, Followed pendingVerify (history ++ events) s' handler worker := by
  obtain ⟨account, idle, handles, rests, serves⟩ := followed
  cases step with
  | @request uri req free =>
      obtain rfl := idle free
      refine ⟨.clear, worker, by simpa using account, nofun, ?_, rests, serves⟩
      intro serving started
      cases started
      exact handler_pays req uri
  | handled finished =>
      obtain rfl : handler = .clear := handles _ finished
      exact ⟨.clear, worker, by simpa using account, fun _ => rfl, nofun, rests, serves⟩
  | @handles answer uri c later reply running replied =>
      obtain ⟨allowed, onward⟩ := handles _ running
      refine ⟨handler.after ⟨c, reply⟩, worker, ?_, nofun, ?_, rests, serves⟩
      · rw [decided_snoc]
        exact account.pays allowed replied
      · intro serving same
        cases same
        exact onward reply
  | @gives answer giving =>
      have free : worker = .clear := rests (by simp [giving])
      have replied : s.shared.reply answer workerReadyGive = some () := rfl
      have allowed : worker.Permits workerReadyGive := trivial
      have paid := (account.comm.pays allowed replied).comm
      exact ⟨handler, _, by rwa [decided_snoc], idle, handles, fun _ => free, nofun⟩
  | @receives answer asyncReq waiting queued =>
      obtain rfl : worker = .clear := rests (by simp [waiting])
      have replied : s.shared.reply answer requestQueueReceive = some (some asyncReq) := by
        simp [OtaShared.reply, queued]
      have allowed : Debt.clear.Permits requestQueueReceive := trivial
      have paid := (account.comm.pays allowed replied).comm
      refine ⟨handler, .clear, by rwa [decided_snoc], idle, handles, fun _ => rfl, ?_⟩
      intro program started
      cases started
      exact otaWorkerServe_pays asyncReq
  | served finished =>
      obtain rfl : worker = .clear := serves _ finished
      exact ⟨handler, .clear, by simpa using account, idle, handles, fun _ => rfl, nofun⟩
  | @serves answer c later reply running replied =>
      obtain ⟨allowed, onward⟩ := serves _ running
      have paid := (account.comm.pays allowed replied).comm
      refine ⟨handler, worker.after ⟨c, reply⟩, by rwa [decided_snoc], idle, handles, fun none => absurd rfl (none _), ?_⟩
      intro program same
      cases same
      exact onward reply
  | @command command rest free queued =>
      rw [free] at account
      have after := account.command queued
      exact ⟨handler, worker, by simpa [free] using after, idle, handles, rests, serves⟩
  | @expires timer free armed =>
      rw [free] at account
      have after := account.expires armed
      exact ⟨handler, worker, by simpa using after, idle, handles, rests, serves⟩
  | returned finished =>
      rw [finished] at account
      obtain ⟨owed, scheduled, known, underway, starts, unstopped, callback, confirmation⟩ := account
      have other : CallTree.done () ≠ otaRestartCallback := nofun
      refine ⟨handler, worker, ?_, idle, handles, rests, serves⟩
      rw [List.append_nil]
      constructor <;> grind [TimerRestarts]
  | @calls answer c later reply running replied =>
      rw [running] at account
      refine ⟨handler, worker, ?_, idle, handles, rests, serves⟩
      rw [decided_snoc]
      exact account.calls

theorem followed_initial (pendingVerify : Bool) : Followed pendingVerify [] (.initial pendingVerify) .clear .clear where
  account := by
    have undecided : ¬Decided [] := by simp [Decided]
    cases pendingVerify <;>
      constructor <;> simp [OtaStack.initial, TimerRestarts, undecided]
  idle _ := rfl
  handles := nofun
  rests _ := rfl
  serves := nofun

theorem followed_of_exec {history : List OtaStep} {s : OtaStack}
    (run : (otaSystem pendingVerify).Exec history s) :
    ∃ handler worker, Followed pendingVerify history s handler worker := by
  induction run with
  | start first =>
      cases first
      exact ⟨.clear, .clear, followed_initial pendingVerify⟩
  | next _ step ih =>
      obtain ⟨handler, worker, followed⟩ := ih
      exact followed.step (OtaTransition.of_next step).2

theorem Followed.handler_owes {history : List OtaStep} {s : OtaStack} {handler worker : Debt}
    (followed : Followed pendingVerify history s handler worker) (owes : handler ≠ .clear) :
    ∃ serving, s.httpd = some serving ∧ Owes serving.program := by
  cases running : s.httpd with
  | none => exact absurd (followed.idle running) owes
  | some serving => exact ⟨serving, rfl, handler, owes, followed.handles serving running⟩

theorem Followed.worker_owes {history : List OtaStep} {s : OtaStack} {handler worker : Debt}
    (followed : Followed pendingVerify history s handler worker) (owes : worker ≠ .clear) :
    ∃ program, s.worker = .serving program ∧ Owes program := by
  cases running : s.worker with
  | giving | waiting => exact absurd (followed.rests (by simp [running])) owes
  | serving program => exact ⟨program, rfl, worker, owes, followed.serves program running⟩

theorem Debt.Acts.owes {debt : Debt} (acts : debt.Acts) : debt ≠ .clear := by
  rcases acts with rfl | rfl <;> nofun

/-- A call that restarts the device has a reason. -/
theorem Followed.provoked {history : List OtaStep} {s : OtaStack} {action s' before step after} {handler worker : Debt}
    (followed : Followed pendingVerify history s handler worker)
    (stepped : OtaTransition s action s' (before ++ step :: after)) (restarts : step.event.call = espRestart) :
    Decided history ∨ pendingVerify = true ∧ step.party = .timer := by
  generalize split : before ++ step :: after = events at stepped
  cases stepped with
  | handles running replied =>
      obtain ⟨-, rfl, -⟩ := System.split_singleton split.symm
      cases restarts
      have refused : handler = .refused := (followed.handles _ running).1
      exact .inl (followed.account.owed (.inl (refused ▸ nofun)))
  | serves running replied =>
      obtain ⟨-, rfl, -⟩ := System.split_singleton split.symm
      cases restarts
      have refused : worker = .refused := (followed.serves _ running).1
      exact .inl (followed.account.owed (.inr (refused ▸ nofun)))
  | calls running replied =>
      obtain ⟨-, rfl, -⟩ := System.split_singleton split.symm
      rcases (followed.account.callback _ running).1 with decided | pending | ended
      · exact .inl decided
      · exact .inr ⟨pending, rfl⟩
      · cases ended
  | gives | receives =>
      obtain ⟨-, rfl, -⟩ := System.split_singleton split.symm
      cases restarts
  | _ => cases before <;> cases split

/-- What a run says about restarts. -/
structure RestartFollows (pendingVerify : Bool) (history : List OtaStep) (s : OtaStack) : Prop where
  /-- The device restarts after a decision, or because its image has not been confirmed. -/
  provoked : ∀ before party reply after, history = before ++ ⟨party, ⟨espRestart, reply⟩⟩ :: after →
    Decided before ∨ pendingVerify = true ∧ party = .timer
  /-- After a decision the timer is going to restart the device, or a program is going to
      schedule that. -/
  followed : Decided history → s.shared.restarted = true ∨ TimerRestarts s.shared s.timer ∨
    (∃ serving, s.httpd = some serving ∧ Owes serving.program) ∨
      ∃ program, s.worker = .serving program ∧ Owes program
  /-- When the programs have ended, other requests find the restart scheduled. -/
  scheduled : Decided history → s.httpd = none → (∀ program, s.worker ≠ .serving program) →
    s.shared.restartScheduled = true

theorem restart_follows {history : List OtaStep} {s : OtaStack} (run : (otaSystem pendingVerify).Exec history s) :
    RestartFollows pendingVerify history s := by
  obtain ⟨handler, worker, followed⟩ := followed_of_exec run
  have account := followed.account
  constructor
  · intro before party reply after split
    apply System.Exec.placed (P := fun before step => step.event.call = espRestart →
      Decided before ∨ pendingVerify = true ∧ step.party = .timer) _ run _ _ _ split rfl
    intro history s action s' events earlier stepped before step after split restarts
    obtain ⟨handler, worker, followed⟩ := followed_of_exec earlier
    have taken := (OtaTransition.of_next stepped).2
    rw [split] at taken
    rcases followed.provoked taken restarts with ⟨decision, member, decides⟩ | timeout
    · exact .inl ⟨decision, List.mem_append_left _ member, decides⟩
    · exact .inr timeout
  · intro decided
    rcases account.scheduled decided with scheduled | owes | owes
    · rcases account.underway scheduled with restarted | acts | acts | fires
      · exact .inl restarted
      · exact .inr (.inr (.inl (followed.handler_owes acts.owes)))
      · exact .inr (.inr (.inr (followed.worker_owes acts.owes)))
      · exact .inr (.inl fires)
    · exact .inr (.inr (.inl (followed.handler_owes (owes ▸ nofun))))
    · exact .inr (.inr (.inr (followed.worker_owes (owes ▸ nofun))))
  · intro decided none resting
    rcases account.scheduled decided with scheduled | owes | owes
    · exact scheduled
    · rw [followed.idle none] at owes
      cases owes
    · rw [followed.rests resting] at owes
      cases owes

/-! A rollback whose timer does not start, so that the handler restarts the device. -/

def refusedTimer (c : OtaCall) : c.Reply :=
  match c with
  | timerStart _ => false
  | c => sampleRequest.succeeds c

def refusedSchedule : List OtaAction :=
  .request .rollback sampleRequest.req :: List.replicate 7 (.httpd refusedTimer)

def refusedRun : Option (OtaStack × List OtaStep) := System.replay OtaStack.next (.initial false) refusedSchedule

theorem refusedRun_isSome : refusedRun.isSome = true := by decide +kernel

theorem refusedRun_restarts : Decided (refusedRun.get refusedRun_isSome).2 ∧
    RestartFollows false (refusedRun.get refusedRun_isSome).2 (refusedRun.get refusedRun_isSome).1 :=
  ⟨by decide +kernel, restart_follows (System.Exec.of_replay_isSome refusedRun_isSome)⟩

end EspGnss.Ota
