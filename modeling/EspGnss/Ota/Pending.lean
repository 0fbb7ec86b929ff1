import EspGnss.Ota.Decision
import EspGnss.Ota.Init

/-! # Before the running image is confirmed

While the running image awaits its confirmation, `s_confirmation_pending` keeps
`/flash` from accepting an upload. The flag is tested long before the worker
erases flash, so the protection rests on who clears it: only `/flash/confirm`, and
only after the image has been marked valid.
-/

namespace EspGnss.Ota

open Foundation OtaCall

/-- The running image has been marked valid. -/
def validates : OtaEvent → Bool
  | ⟨otaMarkAppValidCancelRollback, err⟩ => err = espOk
  | _ => false

def Validated (history : List OtaStep) : Prop := ∃ step ∈ history, validates step.event = true

/-- The calls that touch the inactive slot. -/
def writesSlot : OtaCall → Bool
  | otaBegin _ | otaWrite _ _ => true
  | _ => false

/-- What a handler knows of the confirmation: the value that it last read from or
    wrote to the flag, and whether it has marked the image valid. -/
structure Knowledge where
  flag : Option Bool
  marked : Bool

/-- The image is marked valid and the flag still set. -/
def Knowledge.Owes (known : Knowledge) : Prop := known.marked = true ∧ known.flag = some true

/-- An upload is accepted, the image is confirmed and the flag is cleared only on
    the strength of what the handler knows; nothing comes between the last two. -/
@[simps] def pendingMonitor : Monitor OtaCall.Reply Knowledge where
  allows known
    | confirmationPendingSet pending => pending = false ∧ known.marked = true
    | requestQueueSend _ => known.flag = some false
    | otaMarkAppValidCancelRollback => known.flag = some true ∧ ¬known.Owes
    | timerStop _ => known.marked = true ∧ ¬known.Owes
    | requestQueueReceive | otaBegin _ | otaWrite _ _ => False
    | _ => ¬known.Owes
  observe known
    | ⟨confirmationPendingGet, pending⟩ => { known with flag := some pending }
    | ⟨confirmationPendingSet pending, _⟩ => { known with flag := some pending }
    | ⟨otaMarkAppValidCancelRollback, err⟩ => { known with marked := known.marked || err = espOk }
    | _ => known

/-- What a handler knows when it starts. -/
def Knowledge.none : Knowledge := ⟨Option.none, false⟩

theorem otaRequestQueue_pending (req : HttpdReq) (updatePartition : EspPartition) (sha256 : Sha256) :
    (otaRequestQueue req updatePartition sha256).Meets pendingMonitor
      (fun known _ => ¬known.Owes) ⟨some false, false⟩ := by
  simp [otaRequestQueue, Knowledge.Owes]

theorem otaFlashPostHandler_pending (req : HttpdReq) :
    (otaFlashPostHandler req).Meets pendingMonitor (fun known _ => ¬known.Owes) .none := by
  unfold otaFlashPostHandler otaSha256HeaderParse
  simp [Knowledge.Owes, Knowledge.none]
  intro nonempty header ok
  cases otaSha256Parse header.value with
  | none => simp [Knowledge.Owes]
  | some sha256 =>
      refine ⟨by simp [Knowledge.Owes], ?_⟩
      intro updatePartition
      cases updatePartition with
      | none => exact ⟨by simp [Knowledge.Owes], fun sent => by simp⟩
      | some updatePartition =>
          change CallTree.Meets _ _ _ (if req.contentLen > updatePartition.size then _ else _)
          split
          · simp [Knowledge.Owes]
          · apply CallTree.meets_bind.mpr
            apply (otaRequestQueue_pending _ _ _).mono
            intro known err settled
            simpa [Knowledge.Owes] using settled

theorem handler_pending (req : HttpdReq) (uri : OtaUri) :
    (uri.handler req).Meets pendingMonitor (fun known _ => ¬known.Owes) .none := by
  cases uri with
  | flash => exact otaFlashPostHandler_pending req
  | status => simp [OtaUri.handler, otaStatusGetHandler, Knowledge.Owes, Knowledge.none]
  | confirm => simp [OtaUri.handler, otaConfirmPostHandler, Knowledge.Owes, Knowledge.none]
  | rollback =>
      simp [OtaUri.handler, otaRollbackPostHandler, otaRestartSchedule, Knowledge.Owes, Knowledge.none]

/-- The calls that take part in the confirmation or hand an upload over. -/
def confirmation : OtaCall → Prop
  | confirmationPendingGet | confirmationPendingSet _ | otaMarkAppValidCancelRollback
  | timerStop _ | requestQueueSend _ | requestQueueReceive => True
  | _ => False

/-- Never makes one of these calls. -/
@[simps] def aloofMonitor : Monitor OtaCall.Reply Unit where
  allows _ c := ¬confirmation c
  observe _ _ := ()

theorem otaFlashReceiveVerify_aloof (asyncReq : OtaAsyncRequest) (otaHandle : Nat)
    (result : EspErr) : (otaFlashReceiveVerify asyncReq otaHandle result).Meets aloofMonitor
      (fun _ _ => True) () := by
  simp [otaFlashReceiveVerify, confirmation]

theorem otaWorkerServe_avoids (asyncReq : OtaAsyncRequest) :
    (otaWorkerServe asyncReq).Avoids confirmation := by
  have meets : (otaWorkerServe asyncReq).Meets aloofMonitor (fun _ _ => True) () := by
    unfold otaWorkerServe otaFlashReceive otaFlashReceiveBody otaWorkerFinish otaRestartSchedule
    simp [confirmation]
    intro reply begun
    refine (otaReceiveLoop_keeps (I := fun _ => True) ?_ trivial).mono ?_
    · intro _ c _ inLoop
      cases c with
      | reqRecv | psaHashUpdate | respSendstr | otaWrite => exact ⟨id, fun _ => trivial⟩
      | _ => exact inLoop.elim
    · intro _ ending _ received
      exact otaFlashReceiveVerify_aloof asyncReq reply.otaHandle ending.1
  exact meets.avoids (I := fun _ => True) trivial (fun _ _ _ => trivial) fun _ _ _ aloof => aloof

theorem observe_pending {shared : OtaShared} {event : OtaEvent}
    (other : ∀ pending, event.call ≠ confirmationPendingSet pending) :
    (shared.observe event).confirmationPending = shared.confirmationPending := by
  obtain ⟨c, reply⟩ := event
  cases c with
  | confirmationPendingSet pending => exact absurd rfl (other pending)
  | timerStart | timerStop | requestQueueSend => cases reply <;> rfl
  | otaSetBootPartition | otaMarkAppInvalidRollback =>
      unfold OtaShared.observe
      dsimp only
      split <;> rfl
  | _ => rfl

theorem observe_queue {shared : OtaShared} {event : OtaEvent}
    (send : ∀ asyncReq, event.call ≠ requestQueueSend asyncReq)
    (receive : event.call ≠ requestQueueReceive) :
    (shared.observe event).requestQueue = shared.requestQueue := by
  obtain ⟨c, reply⟩ := event
  cases c with
  | requestQueueSend asyncReq => exact absurd rfl (send asyncReq)
  | requestQueueReceive => exact absurd rfl receive
  | timerStart | timerStop => cases reply <;> rfl
  | otaSetBootPartition | otaMarkAppInvalidRollback =>
      unfold OtaShared.observe
      dsimp only
      split <;> rfl
  | _ => rfl

theorem validated_append {history : List OtaStep} {step : OtaStep} :
    Validated (history ++ [step]) ↔ Validated history ∨ validates step.event = true := by
  simp [Validated, or_and_right, exists_or]

theorem call_of_validates {event : OtaEvent} (valid : validates event = true) :
    event.call = otaMarkAppValidCancelRollback := by
  obtain ⟨c, reply⟩ := event
  cases c with
  | otaMarkAppValidCancelRollback => rfl
  | _ => cases valid

/-- While nothing has marked the image valid, the flag is set and no upload is under
    way; once something has, only the handler that did still finds the flag set. -/
structure Awaiting (history : List OtaStep) (s : OtaStack) (known : Knowledge) : Prop where
  idle : s.httpd = none → ¬known.Owes
  handler : ∀ serving, s.httpd = some serving →
    serving.program.Meets pendingMonitor (fun known _ => ¬known.Owes) known
  flag : ∀ pending, known.flag = some pending → s.shared.confirmationPending = pending
  marked : known.marked = true → Validated history
  cleared : s.shared.confirmationPending = false → Validated history
  owes : Validated history → s.shared.confirmationPending = true → known.Owes
  queued : s.shared.requestQueue ≠ none → Validated history
  worker : ∀ program, s.worker = .serving program →
    Validated history ∧ program.Avoids confirmation
  timer : ∀ program, s.timer = some program → program.Avoids fun c => ¬InCallback c

/-- A call that neither touches the flag nor hands an upload over. -/
theorem Awaiting.bystands {history : List OtaStep} {s s' : OtaStack} {known : Knowledge} {events}
    (awaiting : Awaiting history s known)
    (pending : s'.shared.confirmationPending = s.shared.confirmationPending)
    (queue : s'.shared.requestQueue ≠ none → Validated history)
    (silent : Validated (history ++ events) ↔ Validated history)
    (idle : s'.httpd = none → ¬known.Owes)
    (handler : ∀ serving, s'.httpd = some serving →
      serving.program.Meets pendingMonitor (fun known _ => ¬known.Owes) known)
    (worker : ∀ program, s'.worker = .serving program →
      Validated history ∧ program.Avoids confirmation)
    (timer : ∀ program, s'.timer = some program → program.Avoids fun c => ¬InCallback c) :
    Awaiting (history ++ events) s' known where
  idle := idle
  handler := handler
  flag value same := pending ▸ awaiting.flag value same
  marked marked := silent.mpr (awaiting.marked marked)
  cleared clear := silent.mpr (awaiting.cleared (pending ▸ clear))
  owes valid set := awaiting.owes (silent.mp valid) (pending ▸ set)
  queued full := silent.mpr (queue full)
  worker program serving := ⟨silent.mpr (worker program serving).1, (worker program serving).2⟩
  timer := timer

theorem Awaiting.handles {history : List OtaStep} {s : OtaStack} {known : Knowledge}
    {answer uri c later reply} (awaiting : Awaiting history s known)
    (running : s.httpd = some ⟨uri, .call c later⟩)
    (replied : s.shared.reply answer c = some reply) :
    ∃ known, Awaiting (history ++ [⟨.httpd uri, ⟨c, reply⟩⟩])
      { s with shared := s.shared.observe ⟨c, reply⟩, httpd := some ⟨uri, later reply⟩ } known := by
  obtain ⟨allowed, onward⟩ := awaiting.handler _ running
  have handler : ∀ serving, some (Serving.mk uri (later reply)) = some serving →
      serving.program.Meets pendingMonitor (fun known _ => ¬known.Owes)
        (pendingMonitor.observe known ⟨c, reply⟩) := by
    intro serving same
    cases same
    exact onward reply
  have earlier {event : OtaEvent} (valid : Validated history) :
      Validated (history ++ [⟨.httpd uri, event⟩]) := validated_append.mpr (.inl valid)
  cases c with
  | confirmationPendingGet =>
      obtain rfl : s.shared.confirmationPending = reply := Option.some.inj replied
      have silent : Validated (history ++
          [⟨.httpd uri, ⟨confirmationPendingGet, s.shared.confirmationPending⟩⟩]) ↔ Validated history :=
        validated_append.trans (or_iff_left Bool.false_ne_true)
      refine ⟨_, { awaiting with
        idle := nofun
        handler
        flag := ?_
        marked := fun marked => earlier (awaiting.marked marked)
        cleared := fun clear => earlier (awaiting.cleared clear)
        owes := fun valid set => absurd (awaiting.owes (silent.mp valid) set) allowed
        queued := fun full => earlier (awaiting.queued full)
        worker := fun program serving =>
          ⟨earlier (awaiting.worker program serving).1, (awaiting.worker program serving).2⟩ }⟩
      intro value same
      exact Option.some.inj same
  | confirmationPendingSet value =>
      obtain ⟨rfl, marked⟩ := allowed
      have valid := awaiting.marked marked
      refine ⟨_, { awaiting with
        idle := nofun
        handler
        flag := ?_
        marked := fun _ => earlier valid
        cleared := fun _ => earlier valid
        owes := fun _ set => nomatch set
        queued := fun _ => earlier valid
        worker := fun program serving => ⟨earlier valid, (awaiting.worker program serving).2⟩ }⟩
      intro value same
      exact Option.some.inj same
  | otaMarkAppValidCancelRollback =>
      obtain ⟨set, clean⟩ := allowed
      refine ⟨_, { awaiting with
        idle := nofun
        handler
        flag := awaiting.flag
        marked := ?_
        cleared := fun clear => earlier (awaiting.cleared clear)
        owes := ?_
        queued := fun full => earlier (awaiting.queued full)
        worker := fun program serving =>
          ⟨earlier (awaiting.worker program serving).1, (awaiting.worker program serving).2⟩ }⟩
      · intro marked
        rcases Bool.or_eq_true_iff.mp marked with old | now
        · exact earlier (awaiting.marked old)
        · exact validated_append.mpr (.inr now)
      · intro valid pending
        rcases validated_append.mp valid with old | now
        · exact absurd (awaiting.owes old pending) clean
        · refine ⟨?_, set⟩
          change (known.marked || _) = true
          rw [Bool.or_eq_true_iff]
          exact .inr now
  | requestQueueSend asyncReq =>
      have valid := awaiting.cleared (awaiting.flag false allowed)
      refine ⟨known, awaiting.bystands (observe_pending (by simp)) (fun _ => valid)
        (validated_append.trans (or_iff_left Bool.false_ne_true)) nofun handler awaiting.worker
        awaiting.timer⟩
  | requestQueueReceive | otaBegin | otaWrite => exact allowed.elim
  | _ =>
      refine ⟨known, awaiting.bystands (observe_pending (by simp)) ?_
        (validated_append.trans (or_iff_left Bool.false_ne_true)) nofun handler awaiting.worker
        awaiting.timer⟩
      rw [observe_queue (by simp) (by simp)]
      exact awaiting.queued

theorem Awaiting.step {history : List OtaStep} {s : OtaStack} {known : Knowledge} {action s' events}
    (awaiting : Awaiting history s known) (step : OtaTransition s action s' events) :
    ∃ known, Awaiting (history ++ events) s' known := by
  cases step with
  | @request uri req idle =>
      have clean := awaiting.idle idle
      rw [List.append_nil]
      refine ⟨.none, { awaiting with
        idle := nofun
        handler := ?_
        flag := nofun
        marked := nofun
        owes := fun valid set => absurd (awaiting.owes valid set) clean }⟩
      intro serving same
      cases same
      exact handler_pending req uri
  | handled finished =>
      rw [List.append_nil]
      exact ⟨known, { awaiting with idle := fun _ => awaiting.handler _ finished, handler := nofun }⟩
  | handles running replied => exact awaiting.handles running replied
  | gives =>
      exact ⟨known, awaiting.bystands rfl awaiting.queued
        (validated_append.trans (or_iff_left Bool.false_ne_true)) awaiting.idle awaiting.handler nofun
        awaiting.timer⟩
  | @receives answer asyncReq _ queued =>
      have valid := awaiting.queued (by simp [queued])
      refine ⟨known, awaiting.bystands rfl (fun _ => valid)
        (validated_append.trans (or_iff_left Bool.false_ne_true)) awaiting.idle awaiting.handler ?_
        awaiting.timer⟩
      intro program started
      cases started
      exact ⟨valid, otaWorkerServe_avoids asyncReq⟩
  | served =>
      rw [List.append_nil]
      exact ⟨known, { awaiting with worker := nofun }⟩
  | @serves answer c later reply running =>
      obtain ⟨valid, aloof, onward⟩ := awaiting.worker _ running
      have pending : (s.shared.observe ⟨c, reply⟩).confirmationPending = s.shared.confirmationPending := by
        apply observe_pending
        rintro value rfl
        exact aloof trivial
      have silent : Validated (history ++ [⟨.worker, ⟨c, reply⟩⟩]) ↔ Validated history := by
        apply validated_append.trans (or_iff_left _)
        intro marks
        obtain rfl := call_of_validates marks
        exact aloof trivial
      refine ⟨known, awaiting.bystands pending (fun _ => valid) silent awaiting.idle awaiting.handler ?_
        awaiting.timer⟩
      intro program same
      cases same
      exact ⟨valid, onward reply⟩
  | @command command rest =>
      rw [List.append_nil]
      have same : ({ s.shared with timerCommands := rest }.command command).confirmationPending =
            s.shared.confirmationPending ∧
          ({ s.shared with timerCommands := rest }.command command).requestQueue =
            s.shared.requestQueue := by
        cases command with
        | start timer | stop timer => cases timer <;> exact ⟨rfl, rfl⟩
      exact ⟨known, { awaiting with
        flag := same.1 ▸ awaiting.flag
        cleared := same.1 ▸ awaiting.cleared
        owes := same.1 ▸ awaiting.owes
        queued := same.2 ▸ awaiting.queued }⟩
  | @expires timer =>
      rw [List.append_nil]
      have same : (s.shared.arm false timer).confirmationPending = s.shared.confirmationPending ∧
          (s.shared.arm false timer).requestQueue = s.shared.requestQueue := by
        cases timer <;> exact ⟨rfl, rfl⟩
      refine ⟨known, { awaiting with
        flag := same.1 ▸ awaiting.flag
        cleared := same.1 ▸ awaiting.cleared
        owes := same.1 ▸ awaiting.owes
        queued := same.2 ▸ awaiting.queued
        timer := ?_ }⟩
      intro program started
      cases started
      exact callback_avoids timer
  | returned =>
      rw [List.append_nil]
      exact ⟨known, { awaiting with timer := nofun }⟩
  | @calls answer c later reply running =>
      obtain ⟨inCallback, onward⟩ := awaiting.timer _ running
      have timer : ∀ program, some (later reply) = some program →
          program.Avoids fun c => ¬InCallback c := by
        intro program same
        cases same
        exact onward reply
      cases c with
      | confirmationPendingGet | espRestart =>
          exact ⟨known, awaiting.bystands rfl awaiting.queued
            (validated_append.trans (or_iff_left Bool.false_ne_true)) awaiting.idle awaiting.handler
            awaiting.worker timer⟩
      | _ => exact absurd id inCallback

theorem awaiting_initial : Awaiting [] (.initial true) .none where
  idle _ := by simp [Knowledge.Owes, Knowledge.none]
  handler := nofun
  flag := nofun
  marked := nofun
  cleared := nofun
  owes valid := by simp [Validated] at valid
  queued full := absurd rfl full
  worker := nofun
  timer := nofun

theorem awaiting_of_exec {history : List OtaStep} {s : OtaStack} (run : (otaSystem true).Exec history s) :
    ∃ known, Awaiting history s known := by
  refine run.invariant (I := fun history s => ∃ known, Awaiting history s known)
    (fun s start => ?_) (fun history s action s' events _ h step => ?_)
  · cases start
    exact ⟨.none, awaiting_initial⟩
  · obtain ⟨known, awaiting⟩ := h
    exact awaiting.step (OtaTransition.of_next step).2

section Protection

variable {history : List OtaStep} {s : OtaStack}

/-- Only a step after the validation touches the inactive slot. -/
theorem Awaiting.validated_of_writes {known : Knowledge} {action s' events}
    (awaiting : Awaiting history s known) (step : OtaTransition s action s' events) :
    ∀ step ∈ events, writesSlot step.event.call = true → Validated history := by
  intro entry member writes
  cases step with
  | @handles answer uri c later reply running =>
      cases List.mem_singleton.mp member
      obtain ⟨allowed, -⟩ := awaiting.handler _ running
      cases c with
      | otaBegin | otaWrite => exact allowed.elim
      | _ => cases writes
  | serves running => exact (awaiting.worker _ running).1
  | @calls answer c later reply running =>
      cases List.mem_singleton.mp member
      obtain ⟨inCallback, -⟩ := awaiting.timer _ running
      cases c with
      | otaBegin | otaWrite => exact absurd id inCallback
      | _ => cases writes
  | gives | receives =>
      cases List.mem_singleton.mp member
      cases writes
  | _ => cases member

/-- Nobody sets the flag again. -/
theorem Awaiting.stays_clear {known : Knowledge} {action s' events} (awaiting : Awaiting history s known)
    (step : OtaTransition s action s' events) (clear : s.shared.confirmationPending = false) :
    s'.shared.confirmationPending = false := by
  cases step with
  | @handles answer uri c later reply running =>
      obtain ⟨allowed, -⟩ := awaiting.handler _ running
      by_cases sets : ∃ pending, c = confirmationPendingSet pending
      · obtain ⟨pending, rfl⟩ := sets
        exact allowed.1
      · have other : ∀ pending, c ≠ confirmationPendingSet pending := fun pending same => sets ⟨pending, same⟩
        exact (@observe_pending s.shared ⟨c, reply⟩ other).trans clear
  | @serves answer c later reply running =>
      obtain ⟨-, aloof, -⟩ := awaiting.worker _ running
      have other : ∀ pending, c ≠ confirmationPendingSet pending := by
        rintro pending rfl
        exact aloof trivial
      exact (@observe_pending s.shared ⟨c, reply⟩ other).trans clear
  | @calls answer c later reply running =>
      obtain ⟨inCallback, -⟩ := awaiting.timer _ running
      have other : ∀ pending, c ≠ confirmationPendingSet pending := by
        rintro pending rfl
        exact inCallback id
      exact (@observe_pending s.shared ⟨c, reply⟩ other).trans clear
  | @command command rest =>
      cases command with
      | start timer | stop timer => cases timer <;> exact clear
  | @expires timer => cases timer <;> exact clear
  | _ => exact clear

/-- A confirmation that fails finds the flag set and leaves it so. -/
theorem Awaiting.set_of_failed {known : Knowledge} {action s' party err}
    (awaiting : Awaiting history s known)
    (step : OtaTransition s action s' [⟨party, ⟨otaMarkAppValidCancelRollback, err⟩⟩]) :
    s'.shared.confirmationPending = true := by
  cases step with
  | handles running =>
      obtain ⟨⟨set, -⟩, -⟩ := awaiting.handler _ running
      exact awaiting.flag true set
  | serves running =>
      obtain ⟨-, aloof, -⟩ := awaiting.worker _ running
      exact absurd trivial aloof
  | calls running =>
      obtain ⟨inCallback, -⟩ := awaiting.timer _ running
      exact absurd id inCallback

/-- In a boot whose running image is reported pending, the inactive slot is not
    touched before the image has been marked valid. The flag is not cleared before
    that either, is never set again, and stays set when a confirmation fails. -/
theorem pending_protects_slot (env : CallTree.Environment OtaInitCall.Reply)
    (ready : (otaUpdateStackInit.run env []).2 = espOk)
    (reported : (otaUpdateStackInit.run env []).1.any reportsPending = true)
    (run : (System.ofFunction (.afterInit (otaUpdateStackInit.run env []).1) OtaStack.next).Exec
      history s) :
    (∀ before step after, history = before ++ step :: after →
      writesSlot step.event.call = true → Validated before) ∧
    (s.shared.confirmationPending = false → Validated history) ∧
    (∀ action s' events, s.next action = some (s', events) →
      s.shared.confirmationPending = false → s'.shared.confirmationPending = false) ∧
    ∀ action s' party err,
      s.next action = some (s', [⟨party, ⟨otaMarkAppValidCancelRollback, err⟩⟩]) → err ≠ espOk →
        s'.shared.confirmationPending = true := by
  rw [afterInit_eq env ready, reported] at run
  have run : (otaSystem true).Exec history s := run
  obtain ⟨known, awaiting⟩ := awaiting_of_exec run
  refine ⟨?_, awaiting.cleared, ?_, ?_⟩
  · refine run.placed (P := fun before step => writesSlot step.event.call = true → Validated before) ?_
    intro history s action s' events earlier step before entry after split writes
    obtain ⟨known, awaiting⟩ := awaiting_of_exec earlier
    have valid := awaiting.validated_of_writes (OtaTransition.of_next step).2 entry (by rw [split]; simp)
      writes
    obtain ⟨marking, member, marks⟩ := valid
    exact ⟨marking, List.mem_append_left before member, marks⟩
  · exact fun action s' events step => awaiting.stays_clear (OtaTransition.of_next step).2
  · exact fun action s' party err step _ => awaiting.set_of_failed (OtaTransition.of_next step).2

end Protection

/-! The image is confirmed and then an upload is accepted and begun. -/

def pendingEnvironment : CallTree.Environment OtaInitCall.Reply := fun _ c =>
  match c with
  | .requestQueueCreate | .workerReadyCreate | .timerCreate _ => true
  | .psaCryptoInit => psaSuccess
  | .otaGetStatePartition _ => ⟨espOk, .pendingVerify⟩
  | .ota c => sampleRequest.succeeds c

def uploadAfterConfirmSchedule : List OtaAction :=
  .worker sampleRequest.succeeds :: .request .confirm sampleRequest.req ::
    List.replicate 6 (.httpd sampleRequest.succeeds) ++
    .request .flash sampleRequest.req :: List.replicate 9 (.httpd sampleRequest.succeeds) ++
    List.replicate 4 (.worker sampleRequest.succeeds)

def uploadAfterConfirmRun : Option (OtaStack × List OtaStep) :=
  System.replay OtaStack.next (.afterInit (otaUpdateStackInit.run pendingEnvironment []).1)
    uploadAfterConfirmSchedule

theorem uploadAfterConfirmRun_isSome : uploadAfterConfirmRun.isSome = true := by decide +kernel

theorem uploadAfterConfirmRun_ne_nil :
    (uploadAfterConfirmRun.get uploadAfterConfirmRun_isSome).2 ≠ [] := by
  have some : (uploadAfterConfirmRun.get uploadAfterConfirmRun_isSome).2.isEmpty = false := by
    decide +kernel
  exact List.isEmpty_eq_false_iff.mp some

/-- The slot is touched by the last call of this run. -/
theorem uploadAfterConfirmRun_validated : ∃ before step,
    (uploadAfterConfirmRun.get uploadAfterConfirmRun_isSome).2 = before ++ [step] ∧
      writesSlot step.event.call = true ∧ Validated before := by
  have split := (List.dropLast_append_getLast uploadAfterConfirmRun_ne_nil).symm
  have writes : writesSlot ((uploadAfterConfirmRun.get uploadAfterConfirmRun_isSome).2.getLast
      uploadAfterConfirmRun_ne_nil).event.call = true := by
    decide +kernel
  have protects := pending_protects_slot pendingEnvironment (by decide) (by decide)
    (System.Exec.of_replay_isSome uploadAfterConfirmRun_isSome)
  exact ⟨_, _, split, writes, protects.1 _ _ [] split writes⟩

end EspGnss.Ota
