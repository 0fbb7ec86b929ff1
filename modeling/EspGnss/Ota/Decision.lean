import EspGnss.Ota.Stack
import EspGnss.Ota.Upload
import Mathlib.Tactic.Simps.Basic

/-! # Boot decisions and the worker's token

A selected upload or an accepted rollback decides what boots next, and the program that has
decided sets `s_restart_scheduled` some steps later. The token keeps uploads apart: it is
free, held by a handler, queued with its request, or in the worker's hands. All this holds
of every run, whether or not the handlers' tests still stand when they act on them.
-/

namespace EspGnss.Ota

open Foundation OtaCall

/-- The calls that write the inactive slot or change the boot selection. -/
def changesBoot : OtaCall → Bool
  | otaBegin _ | otaWrite _ _ | otaSetBootPartition _ | otaMarkAppInvalidRollback => true
  | _ => false

/-- A boot decision has succeeded. -/
def decides : OtaEvent → Bool
  | ⟨otaSetBootPartition _, err⟩ | ⟨otaMarkAppInvalidRollback, err⟩ => err = espOk
  | _ => false

def Decided (history : List OtaStep) : Prop := ∃ step ∈ history, decides step.event = true

instance (history : List OtaStep) : Decidable (Decided history) :=
  inferInstanceAs (Decidable (∃ step ∈ history, decides step.event = true))

theorem decided_snoc {history : List OtaStep} {step : OtaStep} :
    Decided (history ++ [step]) ↔ Decided history ∨ decides step.event = true := by
  simp [Decided, or_and_right, exists_or]

/-- The calls with which a round of the worker goes on with its upload. -/
@[simp] def uploads : OtaCall → Bool
  | reqToSockfd _ | psaHashSetup | otaBegin _ | reqRecv _ | psaHashUpdate _ | otaWrite _ _
  | psaHashFinish | otaEnd _ | otaSetBootPartition _ => true
  | _ => false

/-- What a handler has done: whether it holds the worker's token, how it found
    `s_restart_scheduled`, and whether it has decided and not set that flag yet. -/
structure Intent where
  holding : Bool
  tested : Option Bool
  owing : Bool

namespace Intent

def none : Intent := ⟨false, .none, false⟩

@[simp] def Permits (intent : Intent) : OtaCall → Prop
  | requestQueueSend _ | workerReadyGive => intent.holding = true
  | workerReadyTake | otaMarkAppInvalidRollback =>
      intent.holding = false ∧ intent.owing = false ∧ intent.tested = some false
  | requestQueueReceive | otaBegin _ | otaWrite _ _ | otaSetBootPartition _ => False
  | _ => True

@[simp] def after (intent : Intent) : OtaEvent → Intent
  | ⟨restartScheduledGet, scheduled⟩ => { intent with tested := some scheduled }
  | ⟨restartScheduledTestAndSet, _⟩ => { intent with owing := false }
  | ⟨workerReadyTake, taken⟩ => { intent with holding := taken }
  | ⟨requestQueueSend _, sent⟩ => { intent with holding := intent.holding && !sent }
  | ⟨workerReadyGive, _⟩ => { intent with holding := false }
  | ⟨otaMarkAppInvalidRollback, err⟩ => { intent with owing := err = espOk }
  | _ => intent

/-- Nothing is left to be done. -/
def Done (intent : Intent) : Prop := intent.holding = false ∧ intent.owing = false

end Intent

@[simps] def intentMonitor : Monitor OtaCall.Reply Intent := ⟨Intent.Permits, Intent.after⟩

/-- What a round of the worker has done: whether its upload is over, and whether it has
    selected the image and not set `s_restart_scheduled` yet. -/
structure Progress where
  ended : Bool
  selected : Bool

namespace Progress

def none : Progress := ⟨false, false⟩

@[simp] def Permits (progress : Progress) : OtaCall → Prop
  | workerReadyTake | workerReadyGive | requestQueueSend _ | requestQueueReceive
  | otaMarkAppInvalidRollback => False
  | c => uploads c = true → progress.ended = false

@[simp] def after (progress : Progress) : OtaEvent → Progress
  | ⟨otaSetBootPartition _, err⟩ => ⟨true, progress.selected || err = espOk⟩
  | ⟨restartScheduledTestAndSet, _⟩ => ⟨true, false⟩
  | event => { progress with ended := progress.ended || !uploads event.call }

end Progress

@[simps] def progressMonitor : Monitor OtaCall.Reply Progress := ⟨Progress.Permits, Progress.after⟩

/-- A round that ends with nothing left to be done. -/
abbrev Progresses {α : Type} (progress : Progress) (program : OtaProgram α) : Prop :=
  program.Meets progressMonitor (fun progress _ => progress.selected = false) progress

theorem otaRequestQueue_intends (req : HttpdReq) (updatePartition : EspPartition) (sha256 : Sha256) :
    (otaRequestQueue req updatePartition sha256).Meets intentMonitor (fun intent _ => intent.Done)
      ⟨false, some false, false⟩ := by
  simp [otaRequestQueue, Intent.Done]

theorem otaFlashPostHandler_intends (req : HttpdReq) :
    (otaFlashPostHandler req).Meets intentMonitor (fun intent _ => intent.Done) .none := by
  unfold otaFlashPostHandler otaSha256HeaderParse
  simp [Intent.none, Intent.Done]
  intro nonempty header ok
  cases otaSha256Parse header.value with
  | none => simp
  | some sha256 =>
      refine ⟨trivial, ?_⟩
      intro updatePartition
      cases updatePartition with
      | none => exact ⟨trivial, fun sent => ⟨rfl, rfl⟩⟩
      | some updatePartition =>
          change CallTree.Meets _ _ _ (if req.contentLen > updatePartition.size then _ else _)
          split
          · simp
          · apply CallTree.meets_bind.mpr
            apply (otaRequestQueue_intends req updatePartition sha256).mono
            intro intent err done
            simpa [Intent.Done] using done

theorem handler_intends (req : HttpdReq) (uri : OtaUri) :
    (uri.handler req).Meets intentMonitor (fun intent _ => intent.Done) .none := by
  cases uri with
  | flash => exact otaFlashPostHandler_intends req
  | status => simp [OtaUri.handler, otaStatusGetHandler, Intent.none, Intent.Done]
  | confirm => simp [OtaUri.handler, otaConfirmPostHandler, Intent.none, Intent.Done]
  | rollback =>
      simp [OtaUri.handler, otaRollbackPostHandler, otaRestartSchedule, Intent.none, Intent.Done]

/-- The loop goes on with the upload unless it has been left early. -/
theorem otaReceiveLoop_progresses (otaHandle : Nat) (result : EspErr) (remaining timeouts : Nat) :
    (otaReceiveLoop otaHandle result remaining timeouts).Meets progressMonitor
      (fun progress ending => progress.selected = false ∧ (ending.2 = true → progress.ended = false)) .none := by
  induction result, remaining, timeouts using otaReceiveLoop.induct otaHandle with
  | case2 result remaining timeouts done =>
      rw [otaReceiveLoop, if_neg done]
      exact ⟨rfl, fun _ => rfl⟩
  | case1 result remaining timeouts more onTimeout onChunk =>
      rw [otaReceiveLoop, if_pos more]
      simp [Progress.none]
      intro reply
      split
      · exact onTimeout reply
      · intro arrived
        exact onChunk reply (Int.not_le.mpr arrived) espOk

theorem otaFlashReceive_progresses (asyncReq : OtaAsyncRequest) :
    (otaFlashReceive asyncReq).Meets progressMonitor
      (fun progress ending => ending.2 = false → progress.selected = false) .none := by
  unfold otaFlashReceive otaFlashReceiveBody
  simp [Progress.none]
  intro reply begun
  apply (otaReceiveLoop_progresses reply.otaHandle reply.err asyncReq.req.contentLen 0).mono
  intro progress ending left
  obtain ⟨ended, selected⟩ := progress
  obtain ⟨result, received⟩ := ending
  obtain ⟨rfl, open'⟩ : selected = false ∧ (received = true → ended = false) := left
  cases received with
  | false => simp
  | true =>
      obtain rfl : ended = false := open' rfl
      simp [otaFlashReceiveVerify]

theorem otaWorkerServe_progresses (asyncReq : OtaAsyncRequest) : Progresses .none (otaWorkerServe asyncReq) := by
  simp only [otaWorkerServe, Progresses, CallTree.meets_bind, CallTree.meets_perform]
  refine ⟨fun _ => rfl, fun socketFd => (otaFlashReceive_progresses asyncReq).mono ?_⟩
  intro progress ending left
  obtain ⟨result, restartRequired⟩ := ending
  cases restartRequired with
  | true => simp [otaWorkerFinish, otaRestartSchedule]
  | false => simp [otaWorkerFinish, left rfl]

/-- A round whose next call is none of the upload's makes no more of them. -/
theorem progresses_ended {program : OtaProgram WorkerRound} {progress : Progress}
    (progresses : Progresses progress program) (ended : ∀ c ∈ program.head?, uploads c = false) :
    Progresses { progress with ended := true } program := by
  cases program with
  | done round => exact progresses
  | call c later =>
      have other : uploads c = false := ended c rfl
      obtain ⟨allowed, onward⟩ := progresses
      refine ⟨?_, ?_⟩
      · cases c with
        | workerReadyTake | workerReadyGive | requestQueueSend | requestQueueReceive
        | otaMarkAppInvalidRollback => exact allowed
        | _ => simp_all
      · intro reply
        have same : progressMonitor.observe { progress with ended := true } ⟨c, reply⟩ =
            progressMonitor.observe progress ⟨c, reply⟩ := by
          cases c <;> simp_all
        rw [same]
        exact onward reply

/-- The calls of the timer callbacks. -/
def InCallback : OtaCall → Prop
  | confirmationPendingGet | espRestart => True
  | _ => False

theorem callback_avoids (timer : OtaTimer) : timer.callback.Avoids fun c => ¬InCallback c := by
  cases timer with
  | restart => exact ⟨not_not_intro trivial, fun _ => trivial⟩
  | confirmation =>
      refine ⟨not_not_intro trivial, ?_⟩
      intro pending
      cases pending with
      | false => trivial
      | true => exact ⟨not_not_intro trivial, fun _ => trivial⟩

/-- The stack with what its handler and the round of its worker have done. -/
structure WatchedStack where
  stack : OtaStack
  intent : Intent
  progress : Progress

/-- A request starts a new handler. -/
def Intent.moved (intent : Intent) : OtaAction → List OtaStep → Intent
  | .request _ _, _ => none
  | .httpd _, [step] => intent.after step.event
  | _, _ => intent

/-- A received request starts a new round. -/
def Progress.moved (progress : Progress) : OtaAction → List OtaStep → Progress
  | .worker _, [step] => if step.event.call = requestQueueReceive then none else progress.after step.event
  | _, _ => progress

def WatchedStack.next (s : WatchedStack) (action : OtaAction) : Option (WatchedStack × List OtaStep) :=
  (s.stack.next action).map fun (stack, events) =>
    (⟨stack, s.intent.moved action events, s.progress.moved action events⟩, events)

def watchedSystem (pendingVerify : Bool) : System WatchedStack OtaAction OtaStep :=
  .ofFunction ⟨.initial pendingVerify, .none, .none⟩ WatchedStack.next

theorem WatchedStack.next_eq_some {s s' : WatchedStack} {action events} (step : s.next action = some (s', events)) :
    OtaTransition s.stack action s'.stack events ∧ s'.intent = s.intent.moved action events ∧
      s'.progress = s.progress.moved action events := by
  obtain ⟨⟨stack, events'⟩, taken, same⟩ := Option.map_eq_some_iff.mp step
  cases same
  exact ⟨(OtaTransition.of_next taken).2, rfl, rfl⟩

/-- Watching restricts no run. -/
theorem watched_of_exec {pendingVerify : Bool} {history : List OtaStep} {stack : OtaStack}
    (run : (otaSystem pendingVerify).Exec history stack) :
    ∃ s, s.stack = stack ∧ (watchedSystem pendingVerify).Exec history s := by
  induction run with
  | start first =>
      cases first
      exact ⟨_, rfl, .start rfl⟩
  | @next _ _ action after events _ step ih =>
      obtain ⟨s, rfl, watched⟩ := ih
      have taken : s.next action =
          some (⟨after, s.intent.moved action events, s.progress.moved action events⟩, events) :=
        Option.map_eq_some_iff.mpr ⟨_, step, rfl⟩
      exact ⟨_, rfl, watched.next taken⟩

/-- An upload has been accepted that the worker has not finished. -/
def Uploading : List OtaStep → Prop :=
  Since (fun step => ∃ asyncReq, step.event = ⟨requestQueueSend asyncReq, true⟩)
    (fun step => step.party = .worker ∧ step.event.call = workerReadyGive)

/-- The worker has not waited for a request yet. -/
def Unarmed (history : List OtaStep) : Prop :=
  ∀ step ∈ history, ¬(step.party = .worker ∧ step.event.call = workerReadyGive)

/-- What holds between the tasks in every run. -/
structure Standing (history : List OtaStep) (s : WatchedStack) : Prop where
  idle : s.stack.httpd = none → s.intent.Done
  handler : ∀ serving, s.stack.httpd = some serving →
    serving.program.Meets intentMonitor (fun intent _ => intent.Done) s.intent
  rests : (∀ program, s.stack.worker ≠ .serving program) → s.progress.selected = false
  worker : ∀ program, s.stack.worker = .serving program → Progresses s.progress program
  timer : ∀ program, s.stack.timer = some program → program.Avoids fun c => ¬InCallback c
  ready : s.stack.shared.workerReady = true →
    s.intent.holding = false ∧ s.stack.shared.requestQueue = none ∧ s.stack.worker = .waiting
  held : s.intent.holding = true → s.stack.shared.requestQueue = none ∧ s.stack.worker = .waiting
  queued : s.stack.shared.requestQueue ≠ none → s.stack.worker = .waiting
  /-- Where the token is not there, a handler holds it, or the worker has an upload. -/
  out : s.stack.shared.workerReady = true ∨ s.intent.holding = true ∨ Uploading history ∨ Unarmed history
  /-- After a decision the restart is scheduled, or somebody is going to schedule it. -/
  decided : Decided history →
    s.stack.shared.restartScheduled = true ∨ s.intent.owing = true ∨ s.progress.selected = true

/-- The calls that move the token or set `s_restart_scheduled`. -/
def movesToken : OtaCall → Prop
  | workerReadyTake | workerReadyGive | requestQueueSend _ | requestQueueReceive
  | restartScheduledTestAndSet => True
  | _ => False

/-- The token and `s_restart_scheduled` as they were. -/
def SameToken (shared shared' : OtaShared) : Prop :=
  shared'.workerReady = shared.workerReady ∧ shared'.requestQueue = shared.requestQueue ∧
    shared'.restartScheduled = shared.restartScheduled

theorem observe_same {shared : OtaShared} {event : OtaEvent} (other : ¬movesToken event.call) :
    SameToken shared (shared.observe event) := by
  obtain ⟨c, reply⟩ := event
  cases c with
  | workerReadyTake | workerReadyGive | requestQueueSend | requestQueueReceive
  | restartScheduledTestAndSet => exact absurd trivial other
  | timerStart | timerStop => cases reply <;> exact ⟨rfl, rfl, rfl⟩
  | otaSetBootPartition | otaMarkAppInvalidRollback =>
      unfold OtaShared.observe SameToken
      dsimp only
      split <;> exact ⟨rfl, rfl, rfl⟩
  | _ => exact ⟨rfl, rfl, rfl⟩

theorem arm_same (shared : OtaShared) (running : Bool) (timer : OtaTimer) :
    SameToken shared (shared.arm running timer) := by
  cases timer <;> exact ⟨rfl, rfl, rfl⟩

theorem busy_snoc {history : List OtaStep} {step : OtaStep} (other : ¬(step.party = .worker ∧ step.event.call = workerReadyGive))
    (busy : Uploading history ∨ Unarmed history) : Uploading (history ++ [step]) ∨ Unarmed (history ++ [step]) := by
  rcases busy with uploading | unarmed
  · exact .inl (Since.snoc uploading other)
  · exact .inr (List.forall_mem_append.mpr ⟨unarmed, List.forall_mem_singleton.mpr other⟩)

/-- A call that decides nothing. -/
theorem decided_of_snoc {history : List OtaStep} {step : OtaStep} (other : decides step.event = false)
    (decided : Decided (history ++ [step])) : Decided history :=
  (decided_snoc.mp decided).resolve_right (Bool.not_eq_true _ ▸ other)

theorem Intent.after_same {intent : Intent} {event : OtaEvent} (other : ¬movesToken event.call)
    (unlike : event.call ≠ otaMarkAppInvalidRollback) :
    (intent.after event).holding = intent.holding ∧ (intent.after event).owing = intent.owing := by
  obtain ⟨c, reply⟩ := event
  cases c with
  | workerReadyTake | workerReadyGive | requestQueueSend | restartScheduledTestAndSet =>
      exact absurd trivial other
  | otaMarkAppInvalidRollback => exact absurd rfl unlike
  | _ => exact ⟨rfl, rfl⟩

theorem Progress.after_selected {progress : Progress} {event : OtaEvent}
    (unset : event.call ≠ restartScheduledTestAndSet) (unlike : event.call ≠ otaMarkAppInvalidRollback) :
    (progress.after event).selected = (progress.selected || decides event) := by
  obtain ⟨c, reply⟩ := event
  cases c with
  | restartScheduledTestAndSet => exact absurd rfl unset
  | otaMarkAppInvalidRollback => exact absurd rfl unlike
  | _ => simp [decides]

theorem observe_flag {shared : OtaShared} {event : OtaEvent} (unset : event.call ≠ restartScheduledTestAndSet) :
    (shared.observe event).restartScheduled = shared.restartScheduled := by
  obtain ⟨c, reply⟩ := event
  cases c with
  | restartScheduledTestAndSet => exact absurd rfl unset
  | requestQueueSend => cases reply <;> rfl
  | workerReadyTake | workerReadyGive | requestQueueReceive => rfl
  | _ => exact (observe_same id).2.2

namespace Standing

variable {history : List OtaStep} {s : WatchedStack}

/-- The handler goes on after a call. -/
theorem continues {uri c later} (standing : Standing history s)
    (running : s.stack.httpd = some ⟨uri, .call c later⟩) (reply : c.Reply) :
    ∀ serving, some (⟨uri, later reply⟩ : Serving) = some serving →
      serving.program.Meets intentMonitor (fun intent _ => intent.Done) (s.intent.after ⟨c, reply⟩) := by
  intro serving same
  cases same
  exact (standing.handler _ running).2 reply

/-- The handler tries to take the token. -/
theorem takes {uri later} (standing : Standing history s)
    (running : s.stack.httpd = some ⟨uri, .call workerReadyTake later⟩) :
    Standing (history ++ [⟨.httpd uri, ⟨workerReadyTake, s.stack.shared.workerReady⟩⟩])
      ⟨{ s.stack with
          shared := s.stack.shared.observe ⟨workerReadyTake, s.stack.shared.workerReady⟩
          httpd := some ⟨uri, later s.stack.shared.workerReady⟩ },
        s.intent.after ⟨workerReadyTake, s.stack.shared.workerReady⟩, s.progress⟩ := by
  have free : s.intent.holding = false := (standing.handler _ running).1.1
  have handler := standing.continues running s.stack.shared.workerReady
  have old : Decided (history ++ [⟨.httpd uri, ⟨workerReadyTake, s.stack.shared.workerReady⟩⟩]) → Decided history :=
    decided_of_snoc rfl
  cases taken : s.stack.shared.workerReady with
  | false =>
      rw [taken] at handler old
      have out := (standing.out.resolve_left (by simp [taken])).resolve_left (by simp [free])
      exact { standing with
        idle := nofun
        handler
        ready := nofun
        held := nofun
        out := .inr (.inr (busy_snoc (by simp) out))
        decided := standing.decided ∘ old }
  | true =>
      rw [taken] at handler old
      obtain ⟨-, empty, waiting⟩ := standing.ready taken
      exact { standing with
        idle := nofun
        handler
        ready := nofun
        held := fun _ => ⟨empty, waiting⟩
        out := .inr (.inl rfl)
        decided := standing.decided ∘ old }

/-- A call of the handler that moves the token or sets `s_restart_scheduled`. -/
theorem handles_token {answer uri c later reply} (standing : Standing history s)
    (running : s.stack.httpd = some ⟨uri, .call c later⟩) (replied : s.stack.shared.reply answer c = some reply)
    (moves : movesToken c) :
    Standing (history ++ [⟨.httpd uri, ⟨c, reply⟩⟩])
      ⟨{ s.stack with shared := s.stack.shared.observe ⟨c, reply⟩, httpd := some ⟨uri, later reply⟩ },
        s.intent.after ⟨c, reply⟩, s.progress⟩ := by
  obtain ⟨allowed, -⟩ := standing.handler _ running
  have handler := standing.continues running reply
  cases c with
  | workerReadyTake =>
      obtain rfl : s.stack.shared.workerReady = reply := Option.some.inj replied
      exact standing.takes running
  | workerReadyGive =>
      obtain ⟨empty, waiting⟩ := standing.held allowed
      exact { standing with
        idle := nofun
        handler
        ready := fun _ => ⟨rfl, empty, waiting⟩
        held := nofun
        out := .inl rfl
        decided := standing.decided ∘ decided_of_snoc rfl }
  | requestQueueSend asyncReq =>
      have holds : s.intent.holding = true := allowed
      obtain ⟨empty, waiting⟩ := standing.held holds
      obtain rfl : true = reply := by
        have replied : some s.stack.shared.requestQueue.isNone = some reply := replied
        rw [empty] at replied
        exact Option.some.inj replied
      have free : (s.intent.after ⟨requestQueueSend asyncReq, true⟩).holding = false := by simp
      exact { standing with
        idle := nofun
        handler
        ready := fun ready => absurd (holds.symm.trans (standing.ready ready).1) nofun
        held := fun held => absurd (free.symm.trans held) nofun
        queued := fun _ => waiting
        out := .inr (.inr (.inl (since_opened ⟨asyncReq, rfl⟩)))
        decided := standing.decided ∘ decided_of_snoc rfl }
  | restartScheduledTestAndSet =>
      exact { standing with
        idle := nofun
        handler
        out := standing.out.imp_right (.imp_right (busy_snoc (by simp)))
        decided := fun _ => .inl rfl }
  | requestQueueReceive => exact allowed.elim
  | _ => exact moves.elim

/-- The handler asks for the rollback. -/
theorem rolls {uri later} (standing : Standing history s)
    (running : s.stack.httpd = some ⟨uri, .call otaMarkAppInvalidRollback later⟩) (err : EspErr) :
    Standing (history ++ [⟨.httpd uri, ⟨otaMarkAppInvalidRollback, err⟩⟩])
      ⟨{ s.stack with
          shared := s.stack.shared.observe ⟨otaMarkAppInvalidRollback, err⟩
          httpd := some ⟨uri, later err⟩ },
        s.intent.after ⟨otaMarkAppInvalidRollback, err⟩, s.progress⟩ := by
  obtain ⟨-, unowed, -⟩ := (standing.handler _ running).1
  obtain ⟨ready, queue, flag⟩ := @observe_same s.stack.shared ⟨otaMarkAppInvalidRollback, err⟩ id
  exact { standing with
    idle := nofun
    handler := standing.continues running err
    ready := ready ▸ queue ▸ standing.ready
    held := queue ▸ standing.held
    queued := queue ▸ standing.queued
    out := ready ▸ standing.out.imp_right (.imp_right (busy_snoc (by simp)))
    decided := by
      intro decided
      rcases decided_snoc.mp decided with old | new
      · have known := standing.decided old
        rw [unowed] at known
        simpa [flag] using known.imp_right (.imp_left (absurd · nofun))
      · exact .inr (.inl new) }

theorem handles {answer uri c later reply} (standing : Standing history s)
    (running : s.stack.httpd = some ⟨uri, .call c later⟩) (replied : s.stack.shared.reply answer c = some reply) :
    Standing (history ++ [⟨.httpd uri, ⟨c, reply⟩⟩])
      ⟨{ s.stack with shared := s.stack.shared.observe ⟨c, reply⟩, httpd := some ⟨uri, later reply⟩ },
        s.intent.after ⟨c, reply⟩, s.progress⟩ := by
  by_cases moves : movesToken c
  · exact standing.handles_token running replied moves
  by_cases selects : c = otaMarkAppInvalidRollback
  · subst selects
    exact standing.rolls running reply
  · obtain ⟨allowed, -⟩ := standing.handler _ running
    obtain ⟨ready, queue, flag⟩ := @observe_same s.stack.shared ⟨c, reply⟩ moves
    obtain ⟨holding, owing⟩ := @Intent.after_same s.intent ⟨c, reply⟩ moves selects
    have undecided : decides ⟨c, reply⟩ = false := by
      cases c with
      | otaSetBootPartition => exact allowed.elim
      | otaMarkAppInvalidRollback => exact absurd rfl selects
      | _ => rfl
    exact { standing with
      idle := nofun
      handler := standing.continues running reply
      ready := ready ▸ queue ▸ holding ▸ standing.ready
      held := queue ▸ holding ▸ standing.held
      queued := queue ▸ standing.queued
      out := ready ▸ holding ▸ standing.out.imp_right (.imp_right (busy_snoc (by simp)))
      decided := flag ▸ owing ▸ standing.decided ∘ decided_of_snoc undecided }

/-- While the worker is not waiting for a request, it has the token. -/
theorem of_busy (standing : Standing history s) (busy : s.stack.worker ≠ .waiting) :
    s.intent.holding = false ∧ s.stack.shared.requestQueue = none ∧ s.stack.shared.workerReady ≠ true := by
  refine ⟨?_, ?_, ?_⟩
  · cases holding : s.intent.holding with
    | false => rfl
    | true => exact absurd (standing.held holding).2 busy
  · by_contra queued
    exact busy (standing.queued queued)
  · intro ready
    exact busy (standing.ready ready).2.2

theorem serves {answer c later reply} (standing : Standing history s)
    (running : s.stack.worker = .serving (.call c later)) (replied : s.stack.shared.reply answer c = some reply) :
    c ≠ requestQueueReceive ∧ Standing (history ++ [⟨.worker, ⟨c, reply⟩⟩])
      ⟨{ s.stack with shared := s.stack.shared.observe ⟨c, reply⟩, worker := .serving (later reply) },
        s.intent, s.progress.after ⟨c, reply⟩⟩ := by
  obtain ⟨allowed, onward⟩ := standing.worker _ running
  obtain ⟨free, empty, taken⟩ := standing.of_busy (by simp [running])
  have apart : ¬((⟨.worker, ⟨c, reply⟩⟩ : OtaStep).party = .worker ∧ c = workerReadyGive) := by
    rintro ⟨-, rfl⟩
    exact allowed
  have busy := (standing.out.resolve_left taken).resolve_left (by simp [free])
  have token : (s.stack.shared.observe ⟨c, reply⟩).workerReady = s.stack.shared.workerReady ∧
      (s.stack.shared.observe ⟨c, reply⟩).requestQueue = s.stack.shared.requestQueue := by
    by_cases moves : movesToken c
    · cases c with
      | restartScheduledTestAndSet => exact ⟨rfl, rfl⟩
      | workerReadyTake | workerReadyGive | requestQueueSend | requestQueueReceive => exact allowed.elim
      | _ => exact moves.elim
    · obtain ⟨ready, queue, -⟩ := @observe_same s.stack.shared ⟨c, reply⟩ moves
      exact ⟨ready, queue⟩
  refine ⟨?_, ?_⟩
  · rintro rfl
    exact allowed
  · exact { standing with
      rests := fun none => absurd rfl (none _)
      worker := by
        intro program same
        cases same
        exact onward reply
      ready := fun ready => absurd (token.1 ▸ ready) taken
      held := fun held => absurd (free.symm.trans held) nofun
      queued := fun queued => absurd (token.2.trans empty) queued
      out := .inr (.inr (busy_snoc apart busy))
      decided := by
        intro decided
        by_cases sets : c = restartScheduledTestAndSet
        · subst sets
          exact .inl rfl
        · have unlike : c ≠ otaMarkAppInvalidRollback := by
            rintro rfl
            exact allowed
          have known := (decided_snoc.mp decided).imp_left standing.decided
          have flag := @observe_flag s.stack.shared ⟨c, reply⟩ sets
          have selected := @Progress.after_selected s.progress ⟨c, reply⟩ sets unlike
          dsimp only
          rw [flag, selected, Bool.or_eq_true]
          tauto }

/-- The timer service leaves the token and `s_restart_scheduled` alone. -/
theorem ticks (standing : Standing history s) {shared timer} (same : SameToken s.stack.shared shared)
    (callback : ∀ program, timer = some program → program.Avoids fun c => ¬InCallback c) :
    Standing history ⟨{ s.stack with shared := shared, timer := timer }, s.intent, s.progress⟩ := by
  obtain ⟨ready, queue, flag⟩ := same
  exact { standing with
    timer := callback
    ready := ready ▸ queue ▸ standing.ready
    held := queue ▸ standing.held
    queued := queue ▸ standing.queued
    out := ready ▸ standing.out
    decided := flag ▸ standing.decided }

/-- A handler starts. -/
theorem starts (standing : Standing history s) (idle : s.stack.httpd = none) (uri : OtaUri) (req : HttpdReq) :
    Standing history ⟨{ s.stack with httpd := some ⟨uri, uri.handler req⟩ }, .none, s.progress⟩ := by
  obtain ⟨free, unowed⟩ := standing.idle idle
  exact { standing with
    idle := nofun
    handler := by
      intro serving started
      cases started
      exact handler_intends req uri
    ready := fun ready => ⟨rfl, (standing.ready ready).2⟩
    held := nofun
    out := standing.out.imp_right (.imp_left (absurd · (by simp [free])))
    decided := fun decided => (standing.decided decided).imp_right (.imp_left (absurd · (by simp [unowed]))) }

/-- The worker gives the token. -/
theorem gives (standing : Standing history s) (giving : s.stack.worker = .giving) :
    Standing (history ++ [⟨.worker, ⟨workerReadyGive, ()⟩⟩])
      ⟨{ s.stack with shared := s.stack.shared.observe ⟨workerReadyGive, ()⟩, worker := .waiting },
        s.intent, s.progress.after ⟨workerReadyGive, ()⟩⟩ := by
  obtain ⟨free, empty, -⟩ := standing.of_busy (by simp [giving])
  have rests := standing.rests (by simp [giving])
  exact { standing with
    rests := fun _ => rests
    worker := nofun
    ready := fun _ => ⟨free, empty, rfl⟩
    held := fun _ => ⟨empty, rfl⟩
    queued := fun _ => rfl
    out := .inl rfl
    decided := standing.decided ∘ decided_of_snoc rfl }

/-- The worker receives an upload. -/
theorem receives (standing : Standing history s) {asyncReq} (waiting : s.stack.worker = .waiting)
    (queued : s.stack.shared.requestQueue = some asyncReq) :
    Standing (history ++ [⟨.worker, ⟨requestQueueReceive, some asyncReq⟩⟩])
      ⟨{ s.stack with
          shared := s.stack.shared.observe ⟨requestQueueReceive, some asyncReq⟩
          worker := .serving (otaWorkerServe asyncReq) }, s.intent, .none⟩ := by
  have full : s.stack.shared.requestQueue ≠ none := by simp [queued]
  have unselected := standing.rests (by simp [waiting])
  have taken : s.stack.shared.workerReady ≠ true := fun ready => full (standing.ready ready).2.1
  have free : s.intent.holding ≠ true := fun held => full (standing.held held).1
  have busy := (standing.out.resolve_left taken).resolve_left free
  exact { standing with
    rests := fun _ => rfl
    worker := by
      intro program started
      cases started
      exact otaWorkerServe_progresses asyncReq
    ready := fun ready => absurd ready taken
    held := fun held => absurd held free
    queued := absurd rfl
    out := .inr (.inr (busy_snoc (by simp) busy))
    decided := by
      intro decided
      have known := standing.decided (decided_of_snoc rfl decided)
      rw [unselected] at known
      exact known.imp_right (.imp_right (absurd · nofun)) }

/-- The worker's round is over. -/
theorem served (standing : Standing history s) {round} (finished : s.stack.worker = .serving (.done round)) :
    Standing history ⟨{ s.stack with worker := .giving }, s.intent, s.progress⟩ := by
  have unselected : s.progress.selected = false := standing.worker _ finished
  obtain ⟨free, empty, taken⟩ := standing.of_busy (by simp [finished])
  exact { standing with
    rests := fun _ => unselected
    worker := nofun
    ready := fun ready => absurd ready taken
    held := fun held => absurd (free.symm.trans held) nofun
    queued := absurd empty }

/-- A timer callback makes a call. -/
theorem calls (standing : Standing history s) {c later} (running : s.stack.timer = some (.call c later))
    (reply : c.Reply) :
    Standing (history ++ [⟨.timer, ⟨c, reply⟩⟩])
      ⟨{ s.stack with shared := s.stack.shared.observe ⟨c, reply⟩, timer := some (later reply) },
        s.intent, s.progress⟩ := by
  obtain ⟨inCallback, onward⟩ := standing.timer _ running
  obtain ⟨unmoved, undecided⟩ : ¬movesToken c ∧ decides ⟨c, reply⟩ = false := by
    cases c with
    | confirmationPendingGet | espRestart => exact ⟨id, rfl⟩
    | _ => exact absurd id inCallback
  have callback : ∀ program, some (later reply) = some program → program.Avoids fun c => ¬InCallback c := by
    intro program same
    cases same
    exact onward reply
  have kept := standing.ticks (@observe_same s.stack.shared ⟨c, reply⟩ unmoved) callback
  exact { kept with
    out := kept.out.imp_right (.imp_right (busy_snoc (by simp)))
    decided := kept.decided ∘ decided_of_snoc undecided }

theorem step {s' : WatchedStack} {action events} (standing : Standing history s)
    (step : s.next action = some (s', events)) : Standing (history ++ events) s' := by
  obtain ⟨taken, intent, progress⟩ := WatchedStack.next_eq_some step
  clear step
  obtain ⟨stack', intent', progress'⟩ := s'
  obtain rfl : intent' = _ := intent
  obtain rfl : progress' = _ := progress
  dsimp only at taken
  cases taken with
  | @request uri req idle =>
      rw [List.append_nil]
      exact standing.starts idle uri req
  | handled finished =>
      have done : s.intent.Done := standing.handler _ finished
      rw [List.append_nil]
      exact { standing with idle := fun _ => done, handler := nofun }
  | handles running replied => exact standing.handles running replied
  | gives giving => exact standing.gives giving
  | receives waiting queued => exact standing.receives waiting queued
  | served finished =>
      rw [List.append_nil]
      exact standing.served finished
  | @serves answer c later reply running replied =>
      obtain ⟨other, kept⟩ := standing.serves running replied
      have moved : s.progress.moved (.worker answer) [⟨.worker, ⟨c, reply⟩⟩] = s.progress.after ⟨c, reply⟩ :=
        if_neg other
      rw [moved]
      exact kept
  | @command command rest idle queued =>
      have same : SameToken s.stack.shared ({ s.stack.shared with timerCommands := rest }.command command) := by
        cases command <;> exact arm_same _ _ _
      rw [List.append_nil]
      exact standing.ticks same standing.timer
  | @expires timer idle armed =>
      rw [List.append_nil]
      apply standing.ticks (arm_same s.stack.shared false timer)
      intro program same
      cases same
      exact callback_avoids timer
  | returned finished =>
      rw [List.append_nil]
      exact standing.ticks ⟨rfl, rfl, rfl⟩ nofun
  | @calls answer c later reply running replied => exact standing.calls running reply

end Standing

theorem standing_initial (pendingVerify : Bool) : Standing [] ⟨.initial pendingVerify, .none, .none⟩ where
  idle _ := ⟨rfl, rfl⟩
  handler := nofun
  rests _ := rfl
  worker := nofun
  timer := nofun
  ready := nofun
  held := nofun
  queued queued := absurd rfl queued
  out := .inr (.inr (.inr (List.forall_mem_nil _)))
  decided decided := by simp [Decided] at decided

theorem standing_of_exec {pendingVerify : Bool} {history : List OtaStep} {s : WatchedStack}
    (run : (watchedSystem pendingVerify).Exec history s) : Standing history s := by
  refine run.invariant (fun s first => ?_) (fun history s action s' events _ standing step => standing.step step)
  cases first
  exact standing_initial pendingVerify

end EspGnss.Ota
